import Mathlib
import OtaUpgrade.Proofs.Link.Delivery
import OtaUpgrade.Proofs.Link.Terminal
import OtaUpgrade.Proofs.Session.LinkClosing

/-!
How an upgrade leaves its peripheral. Once the session is finished and the worker has no jobs left,
the peripheral is disconnected, but for one way to the end: the timeout of connecting asks for
nothing, and the worker connects a peripheral that nobody will disconnect. So that is exactly when
the peripheral is left connected, directly or through a tunnel, and whatever the order of events.
-/
namespace OtaUpgrade

open Terminal

/-! ## The worker -/

section adapter

variable {σ : Type} [Link σ] [Terminal σ]

namespace Adapter

/-- After these calls the link was taken down, and nothing will bring it up. -/
structure Lost (a : Adapter σ) (calls : List DeviceCall) : Prop where
  called : calls ≠ []
  down : (peripheral a.link).log.connected = false
  settled : .connect ∉ a.jobs

/-- If the event tells that the link is down then it is. -/
def Truthful (a : Adapter σ) (calls : List DeviceCall) (e : Event) : Prop :=
  ∀ error, e = .connection false error → a.Lost calls

/-- How the calls that were made leave the connection. -/
structure Made (p : Peripheral) (made : List DeviceCall) : Prop where
  unconnected : .connect ∉ made → p.log.connected = false
  disconnected : .disconnect ∈ made → p.log.connected = false
  connected : made = [.connect] → p.log.connected = !p.setup.refusesConnection

/-- Where the adapter stands after these calls of its session, the first of which may connect. -/
structure Stands (a : Adapter σ) (setup : PeripheralSetup) (calls : List DeviceCall) : Prop where
  alive : a.alive = true
  setup : (peripheral a.link).setup = setup
  first : .connect ∉ calls.tail
  made : ∃ made, calls = made ++ a.jobs ∧ Made (peripheral a.link) made
  noticed : .disconnected ∈ (peripheral a.link).notices → a.Lost calls
  executed : ∀ e, a.stage = .executed e → a.Truthful calls e
  collected : ∀ e notices, a.stage = .collected e notices →
    a.Truthful calls e ∧ (.disconnected ∈ notices → a.Lost calls)

theorem truthful_of_not_ofConnection {a : Adapter σ} {calls : List DeviceCall} {e : Event}
    (he : e.ofConnection = false) : a.Truthful calls e := by
  rintro error rfl
  cases he

theorem Truthful.of_lost {a b : Adapter σ} {calls calls' : List DeviceCall} {e : Event}
    (h : a.Truthful calls e) (hl : a.Lost calls → b.Lost calls') : b.Truthful calls' e := by
  intro error he
  exact hl (h error he)

theorem truthful_noticed {a : Adapter σ} {calls : List DeviceCall} (c : Carriage) {n : Notice}
    (hn : n = .disconnected → a.Lost calls) : a.Truthful calls (c.noticed n) := by
  cases n with
  | disconnected =>
    intro error he
    cases he
    exact hn rfl
  | indication channel payload =>
    apply truthful_of_not_ofConnection
    unfold Carriage.noticed
    dsimp only
    split <;> rfl

/-- One more call is made. -/
theorem Made.performed {p p' : Peripheral} {made : List DeviceCall} {call : DeviceCall} {e : Event}
    (h : Made p made) (hp : Performed p call e p') (hf : call = .connect → made = []) :
    Made p' (made ++ [call]) := by
  have last (hm : made ++ [call] = [.connect]) : call = .connect := by
    simpa using congrArg List.getLast? hm
  cases hp with
  | refused hr =>
    obtain rfl := hf rfl
    have hdown := h.unconnected List.not_mem_nil
    exact ⟨fun _ => hdown, fun _ => hdown, fun _ => by simp [hdown, hr]⟩
  | connected hr hs hup =>
    obtain rfl := hf rfl
    exact ⟨by simp, by simp, fun _ => by simp [hup, hs, hr]⟩
  | disconnected _ hdown =>
    exact ⟨fun _ => hdown, fun _ => hdown, fun hm => absurd (last hm) nofun⟩
  | served hc hd _ hs =>
    constructor
    · intro hn
      exact hs.down (h.unconnected fun hm => hn (List.mem_append_left _ hm))
    · intro hm
      rcases List.mem_append.mp hm with hm | hm
      · exact hs.down (h.disconnected hm)
      · exact absurd (List.mem_singleton.mp hm).symm hd
    · exact fun hm => absurd (last hm) hc

section step

variable {a : Adapter σ} {setup : PeripheralSetup} {calls : List DeviceCall}

/-- The job in hand is the first one, or does not connect. -/
theorem Stands.first_of_job (h : a.Stands setup calls) {made jobs : List DeviceCall}
    {call : DeviceCall} (hcalls : calls = made ++ call :: jobs) :
    .connect ∉ jobs ∧ (call = .connect → made = []) := by
  have hfirst := h.first
  subst hcalls
  cases made with
  | nil => exact ⟨hfirst, fun _ => rfl⟩
  | cons first made =>
    simp only [List.cons_append, List.tail_cons, List.mem_append, List.mem_cons, not_or] at hfirst
    exact ⟨hfirst.2.2, fun hc => absurd hc.symm hfirst.2.1⟩

/-- The worker takes up a job. -/
theorem Stands.perform (h : a.Stands setup calls)
    {call : DeviceCall} {jobs : List DeviceCall} (hjobs : a.jobs = call :: jobs) {e : Event}
    (carriage : Carriage) {link : σ}
    (hp : Performed (peripheral a.link) call e (peripheral link)) :
    ({ a with jobs, carriage, link, stage := .executed e } : Adapter σ).Stands setup calls ∧
      (a.Lost calls →
        ({ a with jobs, carriage, link, stage := .executed e } : Adapter σ).Lost calls) := by
  obtain ⟨made, hcalls, hmade⟩ := h.made
  rw [hjobs] at hcalls
  obtain ⟨hsettled, hfirst⟩ := h.first_of_job hcalls
  have hcalled : calls ≠ [] := by
    rw [hcalls]
    simp
  have lost (hl : a.Lost calls) :
      ({ a with jobs, carriage, link, stage := .executed e } : Adapter σ).Lost calls := by
    refine ⟨hcalled, hp.down ?_ hl.down, hsettled⟩
    rintro rfl
    exact hl.settled (hjobs ▸ List.mem_cons_self)
  refine ⟨⟨h.alive, hp.setup_eq.trans h.setup, h.first, ?_, ?_, ?_, nofun⟩, lost⟩
  · exact ⟨made ++ [call], by simp [hcalls], hmade.performed hp hfirst⟩
  · intro hn
    rcases hp.noticed hn with hn | hdown
    · exact lost (h.noticed hn)
    · exact ⟨hcalled, hdown, hsettled⟩
  · rintro e' he error rfl
    cases he
    refine ⟨hcalled, ?_, hsettled⟩
    rcases hp.of_loss with ⟨rfl, hsame⟩ | hdown
    · obtain rfl := hfirst rfl
      exact (congrArg (·.log.connected) hsame).trans (hmade.unconnected List.not_mem_nil)
    · exact hdown

/-- The worker collects the notices raised meanwhile. -/
theorem Stands.collect (h : a.Stands setup calls) {e : Event} (hstage : a.stage = .executed e) :
    ({ a with
        stage := .collected e (Link.takeNotices a.link).1
        link := (Link.takeNotices a.link).2 } : Adapter σ).Stands setup calls ∧
      (a.Lost calls →
        ({ a with
            stage := .collected e (Link.takeNotices a.link).1
            link := (Link.takeNotices a.link).2 } : Adapter σ).Lost calls) := by
  obtain ⟨hp, hn⟩ := takeNotices a.link
  have lost (hl : a.Lost calls) :
      ({ a with
          stage := .collected e (Link.takeNotices a.link).1
          link := (Link.takeNotices a.link).2 } : Adapter σ).Lost calls :=
    ⟨hl.called, by rw [hp]; exact hl.down, hl.settled⟩
  obtain ⟨made, hcalls, hmade⟩ := h.made
  refine ⟨⟨h.alive, by rw [hp]; exact h.setup, h.first, ?_, ?_, nofun, ?_⟩, lost⟩
  · refine ⟨made, hcalls, ?_⟩
    rw [hp]
    exact ⟨hmade.unconnected, hmade.disconnected, hmade.connected⟩
  · intro hm
    rw [hp] at hm
    cases hm
  · intro e' notices he
    cases he
    exact ⟨(h.executed e hstage).of_lost lost, fun hm => lost (h.noticed (hn hm))⟩

/-- What the worker has in hand, it has made of the oldest job. -/
theorem Stands.step (h : a.Stands setup calls) :
    a.step.1.Stands setup calls ∧ (a.Lost calls → a.step.1.Lost calls) ∧
      ∀ e ∈ a.step.2.events, a.step.1.Truthful calls e := by
  cases hstage : a.stage with
  | resting =>
    cases hjobs : a.jobs with
    | nil =>
      simp only [Adapter.step, hstage, hjobs]
      exact ⟨h, id, by simp [Posting.events]⟩
    | cons call jobs =>
      obtain ⟨e, he, hp⟩ := a.carriage.performed a.link call
      simp only [Adapter.step, hstage, hjobs]
      generalize a.carriage.perform a.link call = x at he hp
      obtain ⟨e', carriage, link⟩ := x
      obtain rfl : e' = some e := he
      obtain ⟨hs, hl⟩ := h.perform hjobs carriage hp
      exact ⟨hs, hl, by simp [Posting.events]⟩
  | executed e =>
    simp only [Adapter.step, hstage]
    obtain ⟨hs, hl⟩ := h.collect hstage
    exact ⟨hs, hl, by simp [Posting.events]⟩
  | collected e notices =>
    obtain ⟨he, hn⟩ := h.collected e notices hstage
    simp only [Adapter.step, hstage]
    refine ⟨⟨h.alive, h.setup, h.first, h.made, fun hm => ?_, by simp, by simp⟩, fun hl => ?_, ?_⟩
    · obtain ⟨hcalled, hdown, hsettled⟩ := h.noticed hm
      exact ⟨hcalled, hdown, hsettled⟩
    · exact ⟨hl.called, hl.down, hl.settled⟩
    · intro e' hm
      have lost (hl : a.Lost calls) : ({ a with stage := .resting } : Adapter σ).Lost calls :=
        ⟨hl.called, hl.down, hl.settled⟩
      have hm : e' = e ∨ ∃ n ∈ notices, a.carriage.noticed n = e' := by
        unfold posting Posting.events at hm
        cases hsink : a.sink with
        | none => simp [hsink] at hm
        | some sink => simpa [hsink] using hm
      rcases hm with rfl | ⟨n, hmem, rfl⟩
      · exact he.of_lost lost
      · exact truthful_noticed _ fun hloss => lost (hn (hloss ▸ hmem))

/-- The session makes further calls. -/
theorem Stands.charge (h : a.Stands setup calls) {cs : List DeviceCall}
    (hcs : .connect ∈ cs → calls = [] ∧ cs = [.connect]) (sink : Option Nat) :
    ({ a with jobs := a.jobs ++ cs, sink } : Adapter σ).Stands setup (calls ++ cs) ∧
      (a.Lost calls →
        ({ a with jobs := a.jobs ++ cs, sink } : Adapter σ).Lost (calls ++ cs)) := by
  have lost (hl : a.Lost calls) :
      ({ a with jobs := a.jobs ++ cs, sink } : Adapter σ).Lost (calls ++ cs) := by
    refine ⟨by simp [hl.called], hl.down, fun hm => ?_⟩
    rcases List.mem_append.mp hm with hm | hm
    · exact hl.settled hm
    · exact hl.called (hcs hm).1
  have hfirst : .connect ∉ (calls ++ cs).tail := by
    by_cases hm : .connect ∈ cs
    · obtain ⟨rfl, rfl⟩ := hcs hm
      simp
    · intro htail
      cases calls with
      | nil => exact hm (List.mem_of_mem_tail htail)
      | cons first calls =>
        rcases List.mem_append.mp htail with htail | htail
        · exact h.first htail
        · exact hm htail
  obtain ⟨made, hcalls, hmade⟩ := h.made
  constructor
  · refine ⟨h.alive, h.setup, hfirst, ⟨made, ?_, hmade⟩, fun hn => lost (h.noticed hn), ?_, ?_⟩
    · rw [hcalls, List.append_assoc]
    · exact fun e he => (h.executed e he).of_lost lost
    · intro e notices he
      obtain ⟨htrue, hn⟩ := h.collected e notices he
      exact ⟨htrue.of_lost lost, fun hm => lost (hn hm)⟩
  · exact lost

end step

end Adapter

end adapter

/-! ## The loop -/

namespace ClosedLoop

/-- What the session has asked of its device. -/
def calls {σ : Type} (l : ClosedLoop σ) : List DeviceCall :=
  Trace.calls l.host.trace.toList

section loop

variable {σ : Type} [Link σ] [Terminal σ] {setup : PeripheralSetup} {l : ClosedLoop σ}

/-- How session and adapter agree about the link, as long as the session has not broken down. -/
structure Tracks (setup : PeripheralSetup) (l : ClosedLoop σ) : Prop where
  stands : l.adapter.Stands setup l.calls
  opened : l.host.inbox.closed = false
  truthful : ∀ e ∈ l.host.inbox.waiting, l.adapter.Truthful l.calls e
  whole : l.host.crash = none
  sound : l.host.session.Sound
  holding : l.host.session.Holding
  owes : l.host.session.Owes l.calls (l.adapter.Lost l.calls)

/-- The session has broken down, or agrees with its adapter about the link. -/
def Parts (setup : PeripheralSetup) (l : ClosedLoop σ) : Prop :=
  l.host.crash.isSome = true ∧ l.host.session.finished = false ∨ l.Tracks setup

/-- An event that a session takes up keeps the agreement, unless it breaks the session down. -/
theorem Tracks.handle (h : l.Tracks setup) (hl : l.host.live = true) {e : Event}
    (he : l.adapter.Truthful l.calls e) : (l.handle e).Parts setup := by
  obtain ⟨hf, -⟩ : l.host.session.finished = false ∧ l.host.crash = none := by
    simpa [Host.live] using hl
  obtain ⟨hhost, sink, hadapter⟩ := l.handle_of_alive h.stands.alive e
  have hsession : (l.handle e).host.session = (l.host.session.handle e).session :=
    congrArg (·.session) hhost
  have hcrash : (l.handle e).host.crash = (l.host.session.handle e).crash? :=
    congrArg (·.crash) hhost
  cases hc : (l.host.session.handle e).crash? with
  | some c =>
    refine .inl ⟨by rw [hcrash, hc]; rfl, ?_⟩
    by_contra hend
    rw [hsession, Bool.not_eq_false] at hend
    rw [h.sound.crash?_of_finished e hend] at hc
    cases hc
  | none =>
    have hcalls : (l.handle e).calls
        = l.calls ++ Trace.calls (l.host.session.handle e).effects := by
      simp [calls, hhost, Host.absorb]
    have hgrip := h.sound.grip h.holding hf hc
    have hsound := h.sound.handle e hc
    have hfirst (hm : .connect ∈ Trace.calls (l.host.session.handle e).effects) :
        l.calls = [] ∧ Trace.calls (l.host.session.handle e).effects = [.connect] := by
      obtain ⟨hi, hcs⟩ := hgrip.begins_of_connect hm
      exact ⟨(h.owes.idle hi).1, hcs⟩
    obtain ⟨hstands, hlost⟩ := h.stands.charge hfirst sink
    rw [← hadapter, ← hcalls] at hstands hlost
    have howes := h.owes.handle h.sound h.holding hf hc fun error hloss => hlost (he error hloss)
    rw [← hsession, ← hcalls] at howes
    have hinbox : (l.handle e).host.inbox = l.host.inbox := congrArg (·.inbox) hhost
    refine .inr ⟨hstands, ?_, ?_, hcrash.trans hc, hsession ▸ hsound,
      hsession ▸ hgrip.holding hsound, howes⟩
    · rw [hinbox]
      exact h.opened
    · intro e' hm
      rw [hinbox] at hm
      exact (h.truthful e' hm).of_lost hlost

/-- Events that are true may be put into the inbox. -/
theorem Tracks.receive (h : l.Tracks setup) {es : List Event}
    (hes : ∀ e ∈ es, l.adapter.Truthful l.calls e) : (l.receive es).Tracks setup := by
  have hpost : (l.receive es).host.inbox
      = { l.host.inbox with waiting := l.host.inbox.waiting ++ es } :=
    Inbox.postAll_of_open h.opened es
  refine ⟨h.stands, by rw [hpost]; exact h.opened, ?_, h.whole, h.sound, h.holding, h.owes⟩
  intro e hm
  rw [hpost] at hm
  rcases List.mem_append.mp hm with hm | hm
  · exact h.truthful e hm
  · exact hes e hm

/-- A step of the worker keeps the agreement. -/
theorem Tracks.work (h : l.Tracks setup) : (l.move .work).Tracks setup := by
  obtain ⟨hstands, hlost, hposted⟩ := h.stands.step
  have hworked : ({ l with adapter := l.adapter.step.1 } : ClosedLoop σ).Tracks setup :=
    ⟨hstands, h.opened, fun e hm => (h.truthful e hm).of_lost hlost, h.whole, h.sound, h.holding,
      h.owes.imp hlost⟩
  exact hworked.receive hposted

/-- Events from elsewhere do not tell of the connection. -/
theorem Tracks.receive_outside (h : l.Tracks setup) {es : List Event}
    (hes : ∀ e ∈ es, e.fromDevice = false) : (l.receive es).Tracks setup := by
  apply h.receive
  rintro e hm error rfl
  exact absurd (hes _ hm) nofun

/-- The oldest event that waits is taken out of the inbox, and is true. -/
theorem Tracks.take (h : l.Tracks setup) {e : Event} {host : Host}
    (hn : l.host.next? = some (e, host)) :
    ({ l with host } : ClosedLoop σ).Tracks setup ∧ host.live = l.host.live ∧
      l.adapter.Truthful ({ l with host } : ClosedLoop σ).calls e := by
  have htrue := h.truthful
  unfold Host.next? at hn
  cases hw : l.host.inbox.waiting with
  | nil => simp [hw] at hn
  | cons e' rest =>
    rw [hw] at hn htrue
    obtain ⟨rfl, rfl⟩ := Prod.mk.inj (Option.some.inj hn)
    refine ⟨⟨h.stands, h.opened, ?_, h.whole, h.sound, h.holding, h.owes⟩, rfl, ?_⟩
    · intro e hm
      exact htrue e (List.mem_cons_of_mem _ hm)
    · exact htrue e' List.mem_cons_self

theorem Tracks.move (h : l.Tracks setup) (m : Move) : (l.move m).Parts setup := by
  cases m with
  | deliver =>
    simp only [ClosedLoop.move]
    split
    · next e host hl hn =>
      obtain ⟨htracks, hlive, htrue⟩ := h.take hn
      exact htracks.handle (hlive.trans hl) htrue
    · exact .inr h
  | work => exact .inr h.work
  | expire =>
    simp only [ClosedLoop.move]
    split
    · next e hl he =>
      obtain ⟨x, -, rfl⟩ := Option.map_eq_some_iff.mp he
      exact h.handle hl (Adapter.truthful_of_not_ofConnection rfl)
    · exact .inr h
  | answer known =>
    cases known with
    | none => exact .inr ⟨h.stands, h.opened, h.truthful, h.whole, h.sound, h.holding, h.owes⟩
    | some m =>
      have hanswers : ∀ e ∈ List.replicate l.host.asked (Event.meshMetadata (some m)),
          e.fromDevice = false := by
        intro e he
        rw [List.eq_of_mem_replicate he]
        rfl
      have hr := h.receive_outside hanswers
      exact .inr ⟨hr.stands, hr.opened, hr.truthful, hr.whole, hr.sound, hr.holding, hr.owes⟩
  | abort dfu => exact .inr (h.receive_outside (by simp [Event.fromDevice]))

omit [Terminal σ] in
/-- A session that broke down takes up nothing any more. -/
theorem broken_move {m : Move} (hc : l.host.crash.isSome = true)
    (hf : l.host.session.finished = false) :
    (l.move m).host.crash.isSome = true ∧ (l.move m).host.session.finished = false := by
  have hl : l.host.live = false := by
    obtain ⟨c, hc⟩ := Option.isSome_iff_exists.mp hc
    simp [Host.live, hc]
  cases m with
  | deliver | expire =>
    simp only [ClosedLoop.move, hl]
    exact ⟨hc, hf⟩
  | work | abort => exact ⟨hc, hf⟩
  | answer known => cases known <;> exact ⟨hc, hf⟩

/-- Whatever occurs, and in whatever order, session and adapter agree about the link. -/
theorem Parts.undergoAll (h : l.Parts setup) (os : List Occurrence) :
    (l.undergoAll os).Parts setup := by
  induction os generalizing l with
  | nil => exact h
  | cons o os ih =>
    apply ih
    cases o with
    | move m =>
      rcases h with ⟨hc, hf⟩ | h
      · exact .inl (broken_move hc hf)
      · exact h.move m
    | told e outside =>
      rcases h with h | h
      · exact .inl h
      · exact .inr (h.receive_outside (by simp [outside]))

/-- A loop that is to begin, with an adapter that has done nothing yet. -/
theorem Tracks.starting (config : Config) (mode : Mode) (image : Option Image)
    (collaborators : Collaborators) (guard : Guard) {adapter : Adapter σ} {setup : PeripheralSetup}
    (ha : adapter.alive = true) (hj : adapter.jobs = []) (hs : adapter.stage = .resting)
    (hp : peripheral adapter.link = { setup }) :
    (starting config mode image collaborators guard adapter).Tracks setup where
  stands := by
    refine ⟨ha, ?_, nofun, ⟨[], hj.symm, ?_⟩, ?_, ?_, ?_⟩
    · show (peripheral adapter.link).setup = setup
      rw [hp]
    · show Adapter.Made (peripheral adapter.link) []
      rw [hp]
      exact ⟨fun _ => rfl, nofun, nofun⟩
    · intro hn
      change .disconnected ∈ (peripheral adapter.link).notices at hn
      rw [hp] at hn
      cases hn
    · intro e he
      cases hs.symm.trans he
    · intro e notices he
      cases hs.symm.trans he
  opened := rfl
  truthful := by
    intro e hm error he
    rw [List.mem_singleton.mp hm] at he
    cases he
  whole := rfl
  sound := .fresh ..
  holding := nofun
  owes := .fresh ..

/-- Once all is done, the connection stands if connecting was asked for, the peripheral accepted it,
and the session had given up waiting for it. -/
theorem Tracks.connected_iff (h : l.Tracks setup) (hf : l.host.session.finished = true)
    (hj : l.adapter.jobs = []) :
    (peripheral l.adapter.link).log.connected = true ↔
      setup.refusesConnection = false ∧ .connect ∈ l.calls ∧ l.host.session.TimedOut := by
  obtain ⟨made, hcalls, hmade⟩ := h.stands.made
  obtain rfl : l.calls = made := by rw [hcalls, hj, List.append_nil]
  have hup (hc : l.calls = [.connect]) :
      (peripheral l.adapter.link).log.connected = !setup.refusesConnection := by
    rw [hmade.connected hc, h.stands.setup]
  constructor
  · intro hconnected
    have absurd_down (hdown : (peripheral l.adapter.link).log.connected = false) : False := by
      rw [hdown] at hconnected
      cases hconnected
    rcases h.owes.ended hf with hd | hlost | hn | ⟨hc, hout⟩
    · exact (absurd_down (hmade.disconnected hd)).elim
    · exact (absurd_down hlost.down).elim
    · exact (absurd_down (hmade.unconnected (by simp [hn]))).elim
    · rw [hup hc] at hconnected
      exact ⟨by simpa using hconnected, by simp [hc], hout⟩
  · rintro ⟨hr, hm, hout⟩
    rcases (h.owes.timedOut hout).2 with hn | hc
    · rw [hn] at hm
      cases hm
    · rw [hup hc, hr]
      rfl

end loop

/-- When a finished session leaves its peripheral connected, be it reached directly or through a
tunnel, and whatever occurs on the way: the worker has connected it, and the session had given up
waiting for that. -/
theorem left_connected_iff (config : Config) (mode : Mode) (image : Option Image)
    (collaborators : Collaborators) (guard : Guard) (setup : PeripheralSetup) (name : String)
    (os : List Occurrence) :
    (∀ l, l = (starting config mode image collaborators guard
          (Peripheral.directly { setup } name)).undergoAll os →
      l.host.session.finished = true → l.adapter.jobs = [] →
        (l.adapter.link.log.connected = true ↔
          setup.refusesConnection = false ∧ .connect ∈ l.calls ∧
            l.host.session.error = some ⟨.connect, .connectionTimeout⟩)) ∧
      ∀ address near far l, l = (starting config mode image collaborators guard
          { name
            carriage := .tunnelTo address near
            link := SealedLink.ofKey far ({ setup } : Peripheral) }).undergoAll os →
        l.host.session.finished = true → l.adapter.jobs = [] →
          (l.adapter.link.inner.log.connected = true ↔
            setup.refusesConnection = false ∧ .connect ∈ l.calls ∧
              l.host.session.error = some ⟨.connect, .connectionTimeout⟩) := by
  have ended {σ : Type} [Link σ] [Terminal σ] {l : ClosedLoop σ} (hp : l.Parts setup)
      (hf : l.host.session.finished = true) (hj : l.adapter.jobs = []) :
      (peripheral l.adapter.link).log.connected = true ↔
        setup.refusesConnection = false ∧ .connect ∈ l.calls ∧ l.host.session.TimedOut := by
    rcases hp with ⟨-, hn⟩ | h
    · cases hf.symm.trans hn
    · exact h.connected_iff hf hj
  constructor
  · rintro l rfl hf hj
    refine ended (Parts.undergoAll (.inr ?_) os) hf hj
    exact .starting config mode image collaborators guard rfl rfl rfl rfl
  · rintro address near far l rfl hf hj
    refine ended (Parts.undergoAll (.inr ?_) os) hf hj
    exact .starting config mode image collaborators guard rfl rfl rfl rfl

/-- The session waits for the link until its timeout is over, and only then does the worker take up
the job to connect. -/
def belatedly : List Occurrence :=
  [.move .deliver, .move .expire, .move .work, .move .work, .move .work]

/-- Two bytes for a peripheral that is reached directly. -/
def lateDirect : ClosedLoop Peripheral :=
  (starting {} .direct (some ⟨#[1, 2], by decide, by decide⟩) {} {}
    (Peripheral.directly {} "node")).undergoAll belatedly

/-- The same through a tunnel. -/
def lateMesh : ClosedLoop (SealedLink Peripheral) :=
  (starting {} .direct (some ⟨#[1, 2], by decide, by decide⟩) {} {}
    { name := "node"
      carriage := .tunnelTo 5 ⟨.replicate 32 1, rfl⟩
      link := SealedLink.ofKey ⟨.replicate 32 1, rfl⟩ ({} : Peripheral) }).undergoAll belatedly

theorem left_connected_belatedly :
    (lateDirect.host.session.finished = true ∧ lateDirect.adapter.jobs = [] ∧
        (lateDirect.adapter.link.log.connected = true ↔
          ({} : PeripheralSetup).refusesConnection = false ∧ .connect ∈ lateDirect.calls ∧
            lateDirect.host.session.error = some ⟨.connect, .connectionTimeout⟩)) ∧
      lateMesh.host.session.finished = true ∧ lateMesh.adapter.jobs = [] ∧
        (lateMesh.adapter.link.inner.log.connected = true ↔
          ({} : PeripheralSetup).refusesConnection = false ∧ .connect ∈ lateMesh.calls ∧
            lateMesh.host.session.error = some ⟨.connect, .connectionTimeout⟩) := by
  obtain ⟨hdirect, hmesh⟩ := left_connected_iff {} .direct
    (some ⟨#[1, 2], by decide, by decide⟩) {} {} {} "node" belatedly
  have hf : lateDirect.host.session.finished = true := by decide +kernel
  have hj : lateDirect.adapter.jobs = [] := by decide +kernel
  have hf' : lateMesh.host.session.finished = true := by decide +kernel
  have hj' : lateMesh.adapter.jobs = [] := by decide +kernel
  exact ⟨⟨hf, hj, hdirect lateDirect rfl hf hj⟩, hf', hj', hmesh _ _ _ lateMesh rfl hf' hj'⟩

/-- The session is over and the worker has nothing left to do, but the peripheral is connected. -/
theorem connected_after_timeout :
    lateDirect.host.session.finished = true ∧ lateDirect.adapter.idle = true ∧
      lateDirect.adapter.link.log.connected = true := by
  decide +kernel

end ClosedLoop

end OtaUpgrade
