import Mathlib
import OtaUpgrade.Proofs.Link.Replies
import OtaUpgrade.Proofs.Link.SideBySide
import OtaUpgrade.Proofs.Link.Terminal

/-!
What the worker of an adapter posts, and where. Its session may bind, release and submit between any
two of its steps; which job a step posts, and which inbox is bound then, is settled by the order of
the operations alone (`Rota`), and what a job comes to by the link and the jobs before it alone
(`batches`). The postings are these two put together (`postings_in_order`): each job is posted at
most once, in the order of submission, its completion before the notices, and what meets no inbox is
dropped.
-/
namespace OtaUpgrade

/-! ## What jobs come to -/

/-- What a job comes to: the event that completes it, and those that tell what its link has given
notice of up to its end. -/
structure Batch where
  completion : Event
  notices : List Event
  deriving DecidableEq, Repr

/-- The events of a batch, in the order in which they are posted. -/
def Batch.events (b : Batch) : List Event :=
  b.completion :: b.notices

section batches

variable {σ : Type} [Link σ]

/-- What jobs come to that are done one after the other, with the notices taken behind each. In a job
that the link's driver does not survive the worker ends. -/
def Carriage.batches (c : Carriage) (link : σ) : List DeviceCall → List Batch
  | [] => []
  | call :: calls =>
    match c.perform link call with
    | (none, _, _) => []
    | (some completion, c, link) =>
      ⟨completion, (Link.takeNotices link).1.map c.noticed⟩
        :: c.batches (Link.takeNotices link).2 calls

/-- The link's driver survives these calls. -/
def Carriage.Lasts (c : Carriage) (link : σ) (calls : List DeviceCall) : Prop :=
  (c.batches link calls).length = calls.length

/-- A completed job is followed by the others. -/
theorem Carriage.batches_cons {c : Carriage} {link : σ} {call : DeviceCall}
    (calls : List DeviceCall) {completion : Event}
    (h : (c.perform link call).1 = some completion) :
    c.batches link (call :: calls)
      = ⟨completion, (Link.takeNotices (c.perform link call).2.2).1.map
            (c.perform link call).2.1.noticed⟩
        :: (c.perform link call).2.1.batches (Link.takeNotices (c.perform link call).2.2).2 calls := by
  rw [batches]
  generalize c.perform link call = made at h
  obtain ⟨e, c', link'⟩ := made
  obtain rfl : e = some completion := h
  rfl

theorem Carriage.batches_of_breakdown {c : Carriage} {link : σ} {call : DeviceCall}
    (calls : List DeviceCall) (h : (c.perform link call).1 = none) :
    c.batches link (call :: calls) = [] := by
  rw [batches]
  generalize c.perform link call = made at h
  obtain ⟨e, c', link'⟩ := made
  obtain rfl : e = none := h
  rfl

theorem Carriage.Lasts.completes {c : Carriage} {link : σ} {call : DeviceCall}
    {calls : List DeviceCall} (h : c.Lasts link (call :: calls)) :
    ∃ completion, (c.perform link call).1 = some completion := by
  refine Option.ne_none_iff_exists'.mp fun hn => ?_
  rw [Lasts, batches_of_breakdown calls hn] at h
  cases h

theorem Carriage.Lasts.tail {c : Carriage} {link : σ} {call : DeviceCall}
    {calls : List DeviceCall} (h : c.Lasts link (call :: calls)) :
    (c.perform link call).2.1.Lasts (Link.takeNotices (c.perform link call).2.2).2 calls := by
  obtain ⟨completion, hc⟩ := h.completes
  rw [Lasts, batches_cons calls hc] at h
  exact Nat.succ.inj h

theorem DeviceCall.isSome_completion? {α : Type} {call : DeviceCall} {answer : Answer α}
    {success : α → Event} : (call.completion? answer success).isSome = true ↔ answer ≠ .crash := by
  cases answer <;> simp [completion?]

/-- A driver that never breaks down survives a call, however its payload is carried. -/
theorem Carriage.perform_isSome [SteadyLink σ] (c : Carriage) (link : σ) (call : DeviceCall) :
    (c.perform link call).1.isSome = true := by
  cases call with
  | connect => exact SteadyLink.completes link .connect
  | disconnect => exact SteadyLink.completes link .disconnect
  | discover => exact SteadyLink.completes link .discover
  | enableNotifications enabled => exact SteadyLink.completes link (.enableNotifications enabled)
  | write channel data =>
    have hbare := SteadyLink.completes link (.write channel (c.outgoing data).1)
    have hanswer : (Link.write link channel (c.outgoing data).1).1 ≠ .crash := fun hcrash =>
      DeviceCall.isSome_completion?.mp hbare (congrArg (Answer.bind · plain.incomingResponse) hcrash)
    exact DeviceCall.isSome_completion?.mpr
      (Answer.bind_ne_crash hanswer (incomingResponse_ne_crash _))
  | read channel =>
    have hbare := SteadyLink.completes link (.read channel)
    have hanswer : (Link.read link channel).1 ≠ .crash := fun hcrash =>
      DeviceCall.isSome_completion?.mp hbare
        (congrArg (Answer.bind · fun payload => Answer.ofExcept (plain.incoming payload)) hcrash)
    exact DeviceCall.isSome_completion?.mpr
      (Answer.bind_ne_crash hanswer fun _ => Answer.ofExcept_ne_crash _)

/-- Such a driver survives any calls. -/
theorem Carriage.lasts [SteadyLink σ] (c : Carriage) (link : σ) (calls : List DeviceCall) :
    c.Lasts link calls := by
  induction calls generalizing c link with
  | nil => rfl
  | cons call calls ih =>
    obtain ⟨completion, hc⟩ := Option.isSome_iff_exists.mp (c.perform_isSome link call)
    rw [Lasts, batches_cons calls hc]
    exact congrArg Nat.succ (ih _ _)

end batches

/-! ## When they are posted, and where -/

namespace Operation

/-- The jobs that operations submit, in order. -/
def submitted (ops : List Operation) : List DeviceCall :=
  ops.filterMap fun
    | .submit call => some call
    | _ => none

theorem submitted_submit (call : DeviceCall) (ops : List Operation) :
    submitted (.submit call :: ops) = call :: submitted ops := rfl

end Operation

/-- How far a worker is with a job. -/
inductive WorkerPlace where
  | free
  | executed
  | polled
  deriving DecidableEq, Repr

/-- A step in which a worker posts: the job, counted from zero in the order of submission, and the
inbox that is bound at that moment. -/
structure Visit where
  job : Nat
  inbox : Option Nat
  deriving DecidableEq, Repr

/-- What a visit posts of the batches that the jobs come to. Without an inbox it posts nothing. -/
def Visit.posting (v : Visit) (batches : List Batch) : Posting :=
  v.inbox.bind fun inbox => batches[v.job]?.map fun b => (inbox, b.events)

/-- What the job of a visit comes to. -/
def Visit.events (v : Visit) (batches : List Batch) : List Event :=
  (batches[v.job]?.map Batch.events).getD []

/-- What a posting brings to one inbox. -/
def Posting.toInbox (inbox : Nat) (p : Posting) : List Event :=
  if p.map Prod.fst = some inbox then p.events else []

theorem Visit.posting_of_batch {batches : List Batch} {job : Nat} {b : Batch} (inbox : Option Nat)
    (h : batches[job]? = some b) :
    (⟨job, inbox⟩ : Visit).posting batches = inbox.map fun inbox => (inbox, b.events) := by
  cases inbox with
  | none => rfl
  | some inbox => simp [posting, h]

/-- Without its batch a visit posts nothing. -/
theorem Visit.posting_of_none {batches : List Batch} {job : Nat} (inbox : Option Nat)
    (h : batches[job]? = none) : (⟨job, inbox⟩ : Visit).posting batches = none := by
  cases inbox with
  | none => rfl
  | some inbox => simp [posting, h]

/-- An inbox gets the batches of the visits that find it bound. -/
theorem Visit.toInbox_posting (v : Visit) (batches : List Batch) (inbox : Nat) :
    (v.posting batches).toInbox inbox = if v.inbox = some inbox then v.events batches else [] := by
  obtain ⟨job, bound⟩ := v
  cases hb : batches[job]? with
  | none =>
    rw [posting_of_none bound hb]
    simp [events, hb, Posting.toInbox]
  | some b =>
    rw [posting_of_batch bound hb]
    cases bound <;> simp [events, hb, Posting.toInbox, Posting.events]

theorem toInbox_postings (visits : List (Option Visit)) (batches : List Batch) (inbox : Nat) :
    (visits.map fun v => v.bind (·.posting batches)).flatMap (Posting.toInbox inbox)
      = (visits.reduceOption.filter (·.inbox = some inbox)).flatMap (·.events batches) := by
  induction visits with
  | nil => rfl
  | cons v visits ih =>
    rw [List.map_cons, List.flatMap_cons, ih]
    cases v with
    | none => rfl
    | some v =>
      rw [Option.bind_some, v.toInbox_posting batches inbox, List.reduceOption_cons_of_some,
        List.filter_cons]
      by_cases h : v.inbox = some inbox <;> simp [h]

/-- A visit posts its batch, or nothing of it. -/
theorem Visit.events_posting (v : Visit) (batches : List Batch) :
    ((v.posting batches).events).Sublist (v.events batches) := by
  obtain ⟨job, bound⟩ := v
  cases hb : batches[job]? with
  | none =>
    rw [posting_of_none bound hb]
    exact List.nil_sublist _
  | some b =>
    rw [posting_of_batch bound hb]
    cases bound with
    | none => exact List.nil_sublist _
    | some inbox => simp [events, hb, Posting.events]

/-- Visits that do one job after the other post parts of the batches, and each of them once. -/
theorem events_postings {visits : List (Option Visit)} {past : Nat}
    (h : visits.reduceOption.map Visit.job = List.range' past visits.reduceOption.length)
    (batches : List Batch) :
    ((visits.map fun v => v.bind (·.posting batches)).flatMap Posting.events).Sublist
      ((batches.drop past).flatMap Batch.events) := by
  induction visits generalizing past with
  | nil => exact List.nil_sublist _
  | cons v visits ih =>
    cases v with
    | none => exact ih h
    | some v =>
      rw [List.reduceOption_cons_of_some, List.map_cons, List.length_cons, List.range'_succ] at h
      obtain ⟨rfl, hrest⟩ := List.cons.inj h
      have hsplit : (batches.drop v.job).flatMap Batch.events
          = v.events batches ++ (batches.drop (v.job + 1)).flatMap Batch.events := by
        rw [← List.tail_drop, Visit.events, ← List.head?_drop]
        cases batches.drop v.job <;> rfl
      rw [hsplit]
      exact (v.events_posting batches).append (ih hrest)

/-- Where a worker stands, told from the order of operations alone. -/
structure Rota where
  /-- How many jobs wait. -/
  waiting : Nat := 0
  place : WorkerPlace := .free
  /-- How many jobs are done. -/
  past : Nat := 0
  /-- The inbox that was bound last, unless it was released since. -/
  bound : Option Nat := none
  deriving DecidableEq, Repr

namespace Rota

/-- The rota after an operation, and the visit that the operation is, if it is one. A worker takes
the next job up, takes the notices, and then posts. -/
def turn (r : Rota) : Operation → Option Visit × Rota
  | .bind inbox => (none, { r with bound := some inbox })
  | .release => (none, { r with bound := none })
  | .submit _ => (none, { r with waiting := r.waiting + 1 })
  | .work =>
    match r.place with
    | .free =>
      if r.waiting = 0 then (none, r)
      else (none, { r with waiting := r.waiting - 1, place := .executed })
    | .executed => (none, { r with place := .polled })
    | .polled => (some ⟨r.past, r.bound⟩, { r with place := .free, past := r.past + 1 })

/-- The visit that each operation is. -/
def visits (r : Rota) : List Operation → List (Option Visit)
  | [] => []
  | op :: ops => (r.turn op).1 :: (r.turn op).2.visits ops

/-- How many jobs are begun or wait. -/
def ahead (r : Rota) : Nat :=
  r.waiting + if r.place = .free then 0 else 1

/-- The jobs of the visits are done one after the other. -/
theorem jobs_visits (r : Rota) (ops : List Operation) :
    (r.visits ops).reduceOption.map Visit.job
      = List.range' r.past (r.visits ops).reduceOption.length := by
  induction ops generalizing r with
  | nil => rfl
  | cons op ops ih =>
    cases op with
    | bind | release | submit => exact ih _
    | work =>
      simp only [visits, turn]
      cases r.place with
      | free =>
        dsimp only
        split <;> exact ih _
      | executed => exact ih _
      | polled =>
        simp only [List.reduceOption_cons_of_some, List.map_cons, List.length_cons,
          List.range'_succ]
        exact congrArg _ (ih _)

/-- There is no visit without a job. -/
theorem length_visits_le (r : Rota) (ops : List Operation) :
    (r.visits ops).reduceOption.length ≤ r.ahead + (Operation.submitted ops).length := by
  induction ops generalizing r with
  | nil => exact Nat.zero_le _
  | cons op ops ih =>
    cases op with
    | bind | release => exact ih _
    | submit call =>
      have h := ih { r with waiting := r.waiting + 1 }
      rw [Operation.submitted_submit]
      simp only [visits, turn, ahead, List.reduceOption_cons_of_none, List.length_cons] at h ⊢
      omega
    | work =>
      have hsubmitted : Operation.submitted (.work :: ops) = Operation.submitted ops := rfl
      rw [hsubmitted]
      simp only [visits, turn]
      cases hp : r.place with
      | free =>
        dsimp only
        split
        · exact ih r
        · refine Nat.le_trans (ih _) ?_
          simp only [ahead, hp]
          simp
          omega
      | executed =>
        refine Nat.le_trans (ih _) ?_
        simp [ahead, hp]
      | polled =>
        have h := ih { r with place := .free, past := r.past + 1 }
        simp only [ahead, hp, List.reduceOption_cons_of_some, List.length_cons] at h ⊢
        simp at h ⊢
        omega

end Rota

/-! ## The worker keeps to its rota -/

namespace WorkerStage

/-- How far the worker is with the job in hand. -/
def place : WorkerStage → WorkerPlace
  | .resting => .free
  | .executed _ => .executed
  | .collected _ _ => .polled

end WorkerStage

namespace Adapter

variable {σ : Type} [Link σ]

/-- What the jobs come to that the worker has in hand or before it, and those after them. -/
def outlook (a : Adapter σ) (later : List DeviceCall) : List Batch :=
  match a.stage with
  | .resting => a.carriage.batches a.link (a.jobs ++ later)
  | .executed completion =>
    ⟨completion, (Link.takeNotices a.link).1.map a.carriage.noticed⟩
      :: a.carriage.batches (Link.takeNotices a.link).2 (a.jobs ++ later)
  | .collected completion notices =>
    ⟨completion, notices.map a.carriage.noticed⟩ :: a.carriage.batches a.link (a.jobs ++ later)

/-- The link's driver survives the jobs of the worker and those after them. -/
def Lasts (a : Adapter σ) (later : List DeviceCall) : Prop :=
  match a.stage with
  | .executed _ => a.carriage.Lasts (Link.takeNotices a.link).2 (a.jobs ++ later)
  | _ => a.carriage.Lasts a.link (a.jobs ++ later)

/-- Where the worker stands that has done so many jobs. -/
def rota (a : Adapter σ) (past : Nat) : Rota :=
  ⟨a.jobs.length, a.stage.place, past, a.sink⟩

variable {a : Adapter σ} {past : Nat} {later : List DeviceCall} {batches : List Batch}

/-- A step of the worker is a turn of its rota. What it posts is the next batch, to the inbox that is
bound, and the batches behind that are left. -/
theorem step_rota (ha : a.alive = true) (hl : a.Lasts later)
    (ho : a.outlook later = batches.drop past) :
    ∃ past', a.step.1.alive = true ∧ (a.rota past).turn .work
        = (((a.rota past).turn .work).1, a.step.1.rota past') ∧
      a.step.2 = ((a.rota past).turn .work).1.bind (·.posting batches) ∧
      a.step.1.Lasts later ∧ a.step.1.outlook later = batches.drop past' := by
  obtain ⟨name, carriage, link, jobs, stage, alive, sink⟩ := a
  cases stage with
  | resting =>
    cases jobs with
    | nil => exact ⟨past, ha, rfl, rfl, hl, ho⟩
    | cons call jobs =>
      obtain ⟨completion, hc⟩ := Carriage.Lasts.completes hl
      have htail := Carriage.Lasts.tail hl
      have hmade := Carriage.batches_cons (jobs ++ later) hc
      simp only [outlook, List.cons_append, hmade] at ho
      simp only [Adapter.step]
      generalize carriage.perform link call = made at hc htail ho
      obtain ⟨e, carriage, link⟩ := made
      obtain rfl : e = some completion := hc
      exact ⟨past, ha, rfl, rfl, htail, ho⟩
  | executed completion => exact ⟨past, ha, rfl, rfl, hl, ho⟩
  | collected completion notices =>
    have hbatch : batches[past]? = some ⟨completion, notices.map carriage.noticed⟩ := by
      rw [← List.head?_drop, ← ho]
      rfl
    have hrest : carriage.batches link (jobs ++ later) = batches.drop (past + 1) := by
      rw [← List.tail_drop, ← ho]
      rfl
    exact ⟨past + 1, ha, rfl, (Visit.posting_of_batch sink hbatch).symm, hl, hrest⟩

omit [Link σ] in
/-- A job that is submitted is one of those to come. -/
theorem submit_of_alive (ha : a.alive = true) (call : DeviceCall) :
    a.submit call = ({ a with jobs := a.jobs ++ [call] }, none) := by
  rw [submit, ha, if_pos rfl]

/-- Each operation posts what its visit is to post. -/
theorem operateAll_rota (ha : a.alive = true) (ops : List Operation)
    (hl : a.Lasts (Operation.submitted ops))
    (ho : a.outlook (Operation.submitted ops) = batches.drop past) :
    (a.operateAll ops).2 = ((a.rota past).visits ops).map fun v => v.bind (·.posting batches) := by
  induction ops generalizing a past with
  | nil => rfl
  | cons op ops ih =>
    cases op with
    | bind inbox => exact congrArg _ (ih (a := a.bind inbox) ha hl ho)
    | release => exact congrArg _ (ih (a := a.release) ha hl ho)
    | submit call =>
      have hsubmit := submit_of_alive ha call
      have hrota : ({ a with jobs := a.jobs ++ [call] } : Adapter σ).rota past
          = ((a.rota past).turn (.submit call)).2 := by
        simp [rota, Rota.turn]
      have hrest : a.jobs ++ Operation.submitted (.submit call :: ops)
          = a.jobs ++ [call] ++ Operation.submitted ops := by
        rw [Operation.submitted_submit, List.append_assoc]
        rfl
      have hl' : ({ a with jobs := a.jobs ++ [call] } : Adapter σ).Lasts
          (Operation.submitted ops) := by simpa only [Lasts, hrest] using hl
      have ho' : ({ a with jobs := a.jobs ++ [call] } : Adapter σ).outlook
          (Operation.submitted ops) = batches.drop past := by simpa only [outlook, hrest] using ho
      have h := ih (a := { a with jobs := a.jobs ++ [call] }) ha hl' ho'
      rw [hrota] at h
      simp only [Adapter.operateAll, operate, hsubmit]
      exact congrArg _ h
    | work =>
      obtain ⟨past', ha', hturn, hposted, hl', ho'⟩ := step_rota ha hl ho
      have h := ih ha' hl' ho'
      have hrota : ((a.rota past).turn .work).2 = a.step.1.rota past' := congrArg Prod.snd hturn
      rw [← hrota] at h
      exact congrArg₂ List.cons hposted h

/-- Where no inbox is bound, nothing is posted until one is. -/
theorem operateAll_of_unbound (a : Adapter σ) (hs : a.sink = none) {ops : List Operation}
    (hb : ∀ inbox, .bind inbox ∉ ops) : ∀ p ∈ (a.operateAll ops).2, p = none := by
  induction ops generalizing a with
  | nil => exact List.forall_mem_nil _
  | cons op ops ih =>
    have hops : ∀ inbox, .bind inbox ∉ ops := fun inbox hi => hb inbox (List.mem_cons_of_mem _ hi)
    have hposting (es : List Event) : a.posting es = none := by rw [posting, hs]; rfl
    have hop : (a.operate op).2 = none ∧ (a.operate op).1.sink = none := by
      cases op with
      | bind inbox => exact absurd List.mem_cons_self (hb inbox)
      | release => exact ⟨rfl, rfl⟩
      | submit call =>
        simp only [operate, submit]
        split
        · exact ⟨rfl, hs⟩
        · exact ⟨hposting _, hs⟩
      | work =>
        simp only [operate, Adapter.step]
        split
        · split
          · exact ⟨rfl, hs⟩
          · split <;> exact ⟨rfl, hs⟩
        · exact ⟨rfl, hs⟩
        · exact ⟨hposting _, hs⟩
    exact List.forall_mem_cons.mpr ⟨hop.1, ih _ hop.2 hops⟩

/-- What operations post does not depend on those after them. -/
theorem operateAll_append (a : Adapter σ) (ops more : List Operation) :
    (a.operateAll (ops ++ more)).2
      = (a.operateAll ops).2 ++ ((a.operateAll ops).1.operateAll more).2 := by
  induction ops generalizing a with
  | nil => rfl
  | cons op ops ih => exact congrArg _ (ih _)

theorem length_operateAll (a : Adapter σ) (ops : List Operation) :
    (a.operateAll ops).2.length = ops.length := by
  induction ops generalizing a with
  | nil => rfl
  | cons op ops ih => exact congrArg _ (ih _)

/-- What a worker delivers, whatever its session does between its steps, if its link's driver
survives the jobs. Each operation posts what its visit is to post, and nothing but visits post. The
visits do the jobs in the order of submission, each at most once. So an inbox gets the batches of the
jobs whose visit found it bound, each completion right before its notices; nothing is posted twice;
and once the inbox is released nothing is posted until one is bound again. -/
theorem postings_in_order (name : String) (c : Carriage) (link : σ) (ops : List Operation)
    (h : c.Lasts link (Operation.submitted ops)) :
    let batches := c.batches link (Operation.submitted ops)
    let visits := ({} : Rota).visits ops
    let posted := (({ name, carriage := c, link } : Adapter σ).operateAll ops).2
    posted = visits.map (fun v => v.bind (·.posting batches)) ∧
      (visits.reduceOption.map Visit.job = List.range visits.reduceOption.length ∧
        visits.reduceOption.length ≤ batches.length) ∧
      (∀ inbox, posted.flatMap (Posting.toInbox inbox)
        = (visits.reduceOption.filter (·.inbox = some inbox)).flatMap (·.events batches)) ∧
      (posted.flatMap Posting.events).Sublist (batches.flatMap Batch.events) ∧
      ∀ before after, ops = before ++ .release :: after → (∀ inbox, .bind inbox ∉ after) →
        ∀ p ∈ posted.drop before.length, p = none := by
  intro batches visits posted
  -- a worker with nothing to do stands at the beginning of its rota
  have hfresh : ({ name, carriage := c, link } : Adapter σ).outlook (Operation.submitted ops)
      = batches.drop 0 := rfl
  have hposted : posted = visits.map fun v => v.bind (·.posting batches) :=
    operateAll_rota rfl ops h hfresh
  have hjobs := Rota.jobs_visits {} ops
  have hcount : visits.reduceOption.length ≤ batches.length := by
    have hle := Rota.length_visits_le {} ops
    rw [← h] at hle
    exact hle.trans_eq (Nat.zero_add _)
  refine ⟨hposted, ⟨hjobs.trans List.range_eq_range'.symm, hcount⟩, fun inbox => ?_, ?_, ?_⟩
  · rw [hposted]
    exact toInbox_postings visits batches inbox
  · rw [hposted]
    exact events_postings hjobs batches
  · rintro before after rfl hafter
    have hdrop : posted.drop before.length
        = (((({ name, carriage := c, link } : Adapter σ).operateAll before).1).operateAll
            (.release :: after)).2 := by
      show List.drop _ (operateAll _ _).2 = _
      rw [operateAll_append, List.drop_left' (length_operateAll _ before)]
    rw [hdrop]
    exact List.forall_mem_cons.mpr ⟨rfl, operateAll_of_unbound _ rfl hafter⟩

/-- Two jobs, and the inbox is released between their ends. -/
def interrupted : List Operation :=
  [.bind 7, .submit .connect, .submit .discover, .work, .work, .work, .work, .release, .work, .work]

/-- A job that ends before the release is posted, and one that ends after it is not. -/
theorem postings_across_release :
    Carriage.plain.Lasts ({} : Peripheral) (Operation.submitted interrupted) ∧
      ((directly "node" ({} : Peripheral)).operateAll interrupted).2.flatMap (Posting.toInbox 7)
        = [.connection true none] := by
  have hlasts := Carriage.lasts .plain ({} : Peripheral) (Operation.submitted interrupted)
  refine ⟨hlasts, ?_⟩
  obtain ⟨-, -, hinbox, -, -⟩ := postings_in_order "node" .plain ({} : Peripheral) interrupted hlasts
  have hvisits : ({} : Rota).visits interrupted = [none, none, none, none, none,
      some ⟨0, some 7⟩, none, none, none, some ⟨1, none⟩] := by decide
  have hbatches : Carriage.plain.batches ({} : Peripheral) (Operation.submitted interrupted)
      = [⟨.connection true none, []⟩, ⟨.service (some .current) none, []⟩] := by decide
  rw [hvisits, hbatches] at hinbox
  exact hinbox 7

end Adapter
end OtaUpgrade
