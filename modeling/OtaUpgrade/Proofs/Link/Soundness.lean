import Mathlib
import OtaUpgrade.Proofs.Link.Agreement

/-!
One event keeps the agreement between a session and its peripheral. The session takes the event from
the front of what the adapter posts, or is told it by someone else; whatever it then asks of the
device is answered behind all that is still to come.
-/
namespace OtaUpgrade

/-- The event comes from the device's adapter. -/
def Event.fromDevice : Event → Bool
  | .connection _ _ | .service _ _ | .notifications _ _ | .written _ _ | .value _ _ _ => true
  | .start | .meshMetadata _ | .timeout _ | .abort _ => false

theorem Phase.fromDevice_of_takenOnBy {p : Phase} {e : Event} (h : p.takenOnBy e = true) :
    e.fromDevice = true := by
  cases e with
  | connection | service | notifications | written | value => rfl
  | start | meshMetadata | timeout | abort => cases p <;> cases h

/-- An event is taken from the front of a queue, or comes from elsewhere. -/
inductive Takes : List Event → Event → List Event → Prop where
  | front (e : Event) (rest : List Event) : Takes (e :: rest) e rest
  | elsewhere {queue : List Event} {e : Event} (h : e.fromDevice = false) : Takes queue e queue

theorem Takes.sublist {queue rest : List Event} {e : Event} (h : Takes queue e rest) :
    rest.Sublist queue := by
  cases h with
  | front => exact List.sublist_cons_self _ _
  | elsewhere => exact List.Sublist.refl _

/-- What takes the upgrade on was the last to come. -/
theorem Leads.taken {p : Phase} {fact : Prop} {queue rest : List Event} {e : Event}
    (h : Leads p fact queue) (ht : Takes queue e rest) (he : p.takenOnBy e = true) :
    rest = [] ∧ fact := by
  cases ht with
  | front => exact h.1 he
  | elsewhere hn => exact absurd (hn.symm.trans (Phase.fromDevice_of_takenOnBy he)) nofun

theorem Leads.imp {p : Phase} {fact fact' : Prop} {es : List Event} (h : Leads p fact es)
    (hi : fact → fact') : Leads p fact' es := by
  induction es with
  | nil => trivial
  | cons e es ih => exact ⟨fun ht => ⟨(h.1 ht).1, hi (h.1 ht).2⟩, ih h.2⟩

namespace Session

/-- The session agrees with what is still to come and with the peripheral behind that. -/
inductive Agrees (s : Session) (queue : List Event) (p : Peripheral) : Prop where
  /-- Nothing but the app info was asked for. -/
  | calm (hp : s.phase = .idle ∨ s.phase = .readAppInfo)
      (hq : ∀ e ∈ queue, e.ofAppInfo = true) (hc : p.Clean)
  | waits (hi : s.phase ≠ .idle) (hr : s.phase ≠ .readAppInfo)
      (hq : ∀ image, s.image = some image →
        Leads s.phase (p.Keeps image s.transfer s.phase) queue)

section

variable {s : Session} {queue rest : List Event} {p : Peripheral} {e : Event}

theorem Agrees.of_calm (h : Agrees s queue p) (hp : s.phase = .idle ∨ s.phase = .readAppInfo) :
    (∀ e ∈ queue, e.ofAppInfo = true) ∧ p.Clean := by
  cases h with
  | calm _ hq hc => exact ⟨hq, hc⟩
  | waits hi hr => exact (hp.elim hi hr).elim

theorem Agrees.of_taken (h : Agrees s queue p) (ht : Takes queue e rest) {image : Image}
    (hi : s.image = some image) (he : s.phase.takenOnBy e = true) :
    rest = [] ∧ p.Keeps image s.transfer s.phase := by
  cases h with
  | calm hp =>
    rcases hp with hp | hp <;> rw [hp] at he <;> exact absurd he (by cases e <;> nofun)
  | waits _ _ hq => exact (hq image hi).taken ht he

/-- What is to come may get lost. -/
theorem Agrees.sublist (h : Agrees s queue p) (hsub : rest.Sublist queue) : Agrees s rest p := by
  cases h with
  | calm hc hq hcl => exact .calm hc (fun e he => hq e (hsub.subset he)) hcl
  | waits hn hr hq => exact .waits hn hr fun image him => (hq image him).sublist hsub

theorem Agrees.congr {s' : Session} (h : Agrees s queue p) (hp : s'.phase = s.phase)
    (ht : s'.transfer = s.transfer) (hi : s'.image = s.image) : Agrees s' queue p := by
  cases h with
  | calm hc hq hcl => exact .calm (hp ▸ hc) hq hcl
  | waits hn hr hq =>
    refine .waits (hp ▸ hn) (hp ▸ hr) fun image him => ?_
    rw [hp, ht]
    exact hq image (hi ▸ him)

/-- A call is answered behind what is still to come. -/
theorem Agrees.ask {s' : Session} {setup : PeripheralSetup} {ph : Phase} {c : DeviceCall}
    {fact : Peripheral → Prop} (hp : s'.phase = ph) (hi : ph ≠ .idle) (hr : ph ≠ .readAppInfo)
    (hrest : ∀ e ∈ rest, e.ofAppInfo = true)
    (hf : Follows setup ph fact (Link.answered p c))
    (hk : ∀ image, s'.image = some image → fact (Link.answered p c).2 →
      (Link.answered p c).2.Keeps image s'.transfer ph) :
    Agrees s' (rest ++ (Link.answeredAll p [c]).1) (Link.answeredAll p [c]).2 := by
  subst hp
  refine .waits hi hr fun image him => ?_
  refine .append (fun e he => Phase.takenOnBy_of_appInfo _ (hrest e he)) ?_
  simp only [Link.answeredAll, List.append_nil]
  exact hf.leads.imp (hk image him)

/-- One event keeps the agreement, if the upgrade goes on without error. -/
theorem Deed.agrees {s' : Session} {ds : List Effect} {setup : PeripheralSetup}
    (hreject : setup.rejects ≠ some (.verify, .success)) (h : s.Sound) (hd : Deed s e s' ds)
    (hi : s'.image = s.image) (he : s'.error = none) (hc : s'.phase ≠ .complete)
    (ha : Agrees s queue p) (hq : p.Quiet setup) (ht : Takes queue e rest) :
    Agrees s' (rest ++ (Link.answeredAll p (Trace.calls ds)).1)
        (Link.answeredAll p (Trace.calls ds)).2 ∧
      (Link.answeredAll p (Trace.calls ds)).2.Quiet setup := by
  have taken {ph : Phase} (hs : s.phase = ph) (hu : ph.underWay = true)
      (he : ph.takenOnBy e = true) :
      rest = [] ∧ ∃ image, s.image = some image ∧ p.Keeps image s.transfer ph := by
    subst hs
    obtain ⟨image, him⟩ := h.imaged hu
    obtain ⟨hrest, hk⟩ := ha.of_taken ht him he
    exact ⟨hrest, image, him, hk⟩
  have asked {ph : Phase} {c : DeviceCall} (hp : s'.phase = ph) (hni : ph ≠ .idle)
      (hnr : ph ≠ .readAppInfo) (hrest : ∀ e ∈ rest, e.ofAppInfo = true)
      (hc : ∀ channel data, c ≠ .write channel data) (hcl : p.Clean)
      (hkeeps : ∀ image t (p : Peripheral), p.Keeps image t ph = p.Clean) :
      Agrees s' (rest ++ (Link.answeredAll p [c]).1) (Link.answeredAll p [c]).2 ∧
        (Link.answeredAll p [c]).2.Quiet setup := by
    have hf : Follows setup ph Peripheral.Clean (Link.answered p c) :=
      hq.link hc ph fun p' hs => hs.clean hcl
    exact ⟨.ask hp hni hnr hrest hf fun image _ hf => by rwa [hkeeps], hf.quiet⟩
  -- `taken`: an event that takes the upgrade on is the last one, so the next answer belongs to the
  -- next command; `asked`: a call that writes nothing leaves the peripheral clean
  cases hd with
  | stays hp htr herr hds =>
    subst hds
    rw [show Trace.calls [] = [] from rfl, Link.answeredAll, List.append_nil]
    exact ⟨(ha.sublist ht.sublist).congr hp htr hi, hq⟩
  | connects hs hp htr herr hds =>
    obtain ⟨hall, hcl⟩ := ha.of_calm (.inl hs)
    have hrest : ∀ e ∈ rest, e.ofAppInfo = true := fun e he => hall e (ht.sublist.subset he)
    rcases hds with rfl | rfl
    · rw [show Trace.calls [] = [] from rfl, Link.answeredAll, List.append_nil]
      refine ⟨.waits (by simp [hp]) (by simp [hp]) fun image _ => ?_, hq⟩
      have hl : Leads s'.phase (p.Keeps image s'.transfer s'.phase) (rest ++ []) :=
        .append (fun e he => Phase.takenOnBy_of_appInfo _ (hrest e he)) trivial
      rwa [List.append_nil] at hl
    · exact asked hp (by decide) (by decide) hrest (c := .connect) (by rintro _ _ ⟨⟩) hcl
        fun _ _ _ => rfl
  | discovers hs hev hp htr herr hds =>
    subst hev hds
    obtain ⟨rfl, image, him, hcl⟩ := taken hs rfl rfl
    exact asked hp (by decide) (by decide) (List.forall_mem_nil _) (c := .discover)
      (by rintro _ _ ⟨⟩) hcl fun _ _ _ => rfl
  | reads hs hev hp htr herr hds =>
    subst hev
    obtain ⟨rfl, image, him, hcl⟩ := taken hs rfl rfl
    rcases hds with rfl | rfl
    · exact ⟨.calm (.inr hp) (List.forall_mem_nil _) hcl, hq⟩
    · obtain ⟨value, error, hr⟩ := Peripheral.answered_read hq.notices .appInfo
      obtain ⟨-, hsame, hn⟩ := Peripheral.answered_link hq.notices (c := .read .appInfo)
        (by rintro _ _ ⟨⟩)
      refine ⟨.calm (.inr hp) ?_ (hsame.clean hcl), hsame.setup.trans hq.setup, hn⟩
      intro x hx
      have hx : x ∈ (Link.answered p (.read .appInfo)).1 ++ [] := hx
      rw [hr, List.append_nil, List.mem_singleton] at hx
      rw [hx]
      rfl
  | notifies hs hp htr herr hds =>
    subst hds
    have hcalm : (∀ e ∈ rest, e.ofAppInfo = true) ∧ p.Clean := by
      rcases hs with hs | ⟨hs, v, rfl⟩
      · obtain ⟨hall, hcl⟩ := ha.of_calm (.inr hs)
        exact ⟨fun e he => hall e (ht.sublist.subset he), hcl⟩
      · obtain ⟨rfl, image, him, hcl⟩ := taken hs rfl rfl
        exact ⟨List.forall_mem_nil _, hcl⟩
    exact asked hp (by decide) (by decide) hcalm.1 (c := .enableNotifications true)
      (by rintro _ _ ⟨⟩) hcalm.2 fun _ _ _ => rfl
  | prepares hs hev hp htr herr hds =>
    subst hev hds
    obtain ⟨rfl, image, him, hcl⟩ := taken hs rfl rfl
    have hf := hq.prepare hcl s.mode
    exact ⟨.ask hp (by decide) (by decide) (List.forall_mem_nil _) hf fun _ _ hk => hk, hf.quiet⟩
  | @starts image hs hg him hp htr herr hds =>
    subst hds
    obtain ⟨rfl, image', -, hcl⟩ := taken hs rfl hg
    have hf := hq.start hcl image s'.transfer
    refine ⟨.ask hp (by decide) (by decide) (List.forall_mem_nil _) hf fun image' him' hk => ?_,
      hf.quiet⟩
    obtain rfl : image = image' := Option.some.inj (him.symm.trans (hi ▸ him'))
    exact hk
  | @transfers image size hs hg him pos hst hp htr herr hds =>
    subst hds
    obtain ⟨rfl, image', him', hrec, hann⟩ := taken hs rfl hg
    obtain rfl : image = image' := Option.some.inj (him.symm.trans him')
    have hnone : p.log.received.toList = image.bytes.take (image.covered size 0) := by
      rw [hrec]
      simp
    have hf := hq.data (t := s'.transfer) hnone hann (by rw [htr]; rfl) (by rw [htr]; rfl)
    refine ⟨.ask hp (by decide) (by decide) (List.forall_mem_nil _) hf fun image' him' hk => ?_,
      hf.quiet⟩
    obtain rfl : image = image' := Option.some.inj (him.symm.trans (hi ▸ him'))
    exact hk
  | @next image size count hs hev him pos lt hst hp htr herr hds =>
    subst hds
    obtain ⟨rfl, image', him', hrec, hann⟩ := taken hs rfl hev
    obtain rfl : image = image' := Option.some.inj (him.symm.trans him')
    rw [hst, Transfer.chunkSize_after, Transfer.chunksSent_after] at hrec
    have hf := hq.data (t := s'.transfer) hrec
      (fun size hs => (Option.some.inj (hann.symm.trans hs)).symm) (by rw [htr]; rfl)
      (by rw [htr]; rfl)
    refine ⟨.ask hp (by decide) (by decide) (List.forall_mem_nil _) hf fun image' him' hk => ?_,
      hf.quiet⟩
    obtain rfl : image = image' := Option.some.inj (him.symm.trans (hi ▸ him'))
    exact hk
  | @verifies image size count hs hev him pos lt hall hst hp hw htr herr hds =>
    subst hds
    obtain ⟨rfl, image', him', hrec, hann⟩ := taken hs rfl hev
    obtain rfl : image = image' := Option.some.inj (him.symm.trans him')
    rw [hst, Transfer.chunkSize_after, Transfer.chunksSent_after,
      Image.take_covered_all hall] at hrec
    have hf := hq.verify hreject s'.transfer hrec hann
    refine ⟨.ask hp (by decide) (by decide) (List.forall_mem_nil _) hf fun image' him' hk => ?_,
      hf.quiet⟩
    obtain rfl : image = image' := Option.some.inj (him.symm.trans (hi ▸ him'))
    exact hk
  | finishes hs hev hp => exact absurd hp hc
  | fails hp herr =>
    rw [he] at herr
    cases herr

/-- An upgrade that ends without error delivers the image, and nothing more is to come. -/
theorem Deed.delivers {s' : Session} {ds : List Effect} (h : s.Sound) (hd : Deed s e s' ds)
    (hf : s.finished = false) (hp : s'.phase = .complete) (he : s'.error = none)
    (ha : Agrees s queue p) (ht : Takes queue e rest) :
    ∃ image, s.image = some image ∧ rest = [] ∧ Delivered image p.log ∧
      ∀ c ∈ Trace.calls ds, c = .disconnect := by
  have elsewhere {ph : Phase} (hp' : s'.phase = ph) (hne : ph ≠ .complete) : False :=
    hne (hp'.symm.trans hp)
  cases hd with
  | stays hp' => exact (h.not_complete hf (hp'.symm.trans hp)).elim
  | finishes hs hev _ _ _ hcalls =>
    -- a reboot counts here like an answer of success
    have htaken : s.phase.takenOnBy e = true := by
      rw [hs]
      rcases hev with hg | ⟨-, error, rfl⟩
      · cases e with
        | connection => cases hg
        | _ => exact hg
      · rfl
    obtain ⟨image, him⟩ := h.imaged (by rw [hs]; rfl)
    obtain ⟨hrest, hk⟩ := ha.of_taken ht him htaken
    rw [hs] at hk
    exact ⟨image, him, hrest, hk, hcalls⟩
  | fails _ herr =>
    rw [he] at herr
    cases herr
  | connects _ hp' | discovers _ _ hp' | reads _ _ hp' | notifies _ hp' | prepares _ _ hp'
  | starts _ _ _ hp' | transfers _ _ _ _ _ hp' | next _ _ _ _ _ _ hp'
  | verifies _ _ _ _ _ _ _ hp' => exact (elsewhere hp' (by decide)).elim

end

end Session
end OtaUpgrade
