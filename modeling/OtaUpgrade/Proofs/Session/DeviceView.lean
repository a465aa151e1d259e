import Mathlib
import OtaUpgrade.Proofs.Session.SoundStep
import OtaUpgrade.Session.Trace

/-!
What comes of an event, as the device sees it: the phase before and after, the books of the
transfer, and what is asked of the device. `Deed` leaves out timeouts, guard and reports; histories
of writes and the loop with the device are told in its terms.
-/
namespace OtaUpgrade

/-- The effect reaches the device's adapter. -/
def Effect.reachesAdapter : Effect → Bool
  | .bind | .release | .call _ => true
  | _ => false

/-- The event completes the write of a chunk. -/
def Event.acknowledges : Event → Bool
  | .written .data (.ok _) => true
  | _ => false

/-- The write of a command. -/
def DeviceCall.command (c : Command) : DeviceCall :=
  .write .controlPoint c.encode

/-- Commands of two kinds differ on the wire. -/
theorem DeviceCall.opcode_of_command_eq {a b : Command} (h : command a = command b) :
    a.opcode = b.opcode := by
  simp only [command, Command.encode, DeviceCall.write.injEq, true_and, List.cons.injEq] at h
  have hb := congrArg Opcode.ofByte? h.1
  simpa using hb

theorem DeviceCall.command_ne_data (c : Command) (bytes : Bytes) :
    command c ≠ .write .data bytes := by
  simp [command]

namespace Trace

/-- What reaches the device's adapter. -/
def dealings (es : List Effect) : List Effect := es.filter Effect.reachesAdapter

@[simp] theorem dealings_append (as bs : List Effect) :
    dealings (as ++ bs) = dealings as ++ dealings bs :=
  List.filter_append ..

theorem calls_dealings (es : List Effect) : calls (dealings es) = calls es := by
  induction es with
  | nil => rfl
  | cons e es ih =>
    cases e with
    | bind | release | report | askMesh | signal => exact ih
    | call c => exact congrArg (c :: ·) ih

theorem writes_dealings (channel : Characteristic) (es : List Effect) :
    writes channel (dealings es) = writes channel es := by
  unfold writes
  rw [calls_dealings]

end Trace

namespace Session

/-- What comes of an event, as the device sees it. -/
inductive Deed (s : Session) (e : Event) (s' : Session) (ds : List Effect) : Prop where
  | stays (hp : s'.phase = s.phase) (ht : s'.transfer = s.transfer)
      (he : s'.error = s.error) (hd : ds = [])
      (ha : s.phase = .dataTransfer → e.acknowledges = false)
      (hw : s'.wait = s.wait ∨ s.phase = .readAppInfo ∨
        e = .written .controlPoint (.ok none))
  | connects (hs : s.phase = .idle) (hp : s'.phase = .connect)
      (ht : s'.transfer = s.transfer) (he : s'.error = s.error)
      (hd : ds = [] ∨ ds = [.bind, .call .connect])
  | discovers {size : Nat} {error : Option LinkError} (hs : s.phase = .connect)
      (hev : e = .connection true error) (hp : s'.phase = .serviceDiscover)
      (ht : s'.transfer = { s.transfer with chunkSize := size })
      (he : s'.error = s.error) (hd : ds = [.call .discover])
  | reads {v : Variant} (hs : s.phase = .serviceDiscover) (hev : e = .service (some v) none)
      (hp : s'.phase = .readAppInfo) (ht : s'.transfer = s.transfer)
      (he : s'.error = s.error)
      (hd : ds = [] ∨ ds = [.call (.read .appInfo)])
  | notifies (hs : s.phase = .readAppInfo ∨
        s.phase = .serviceDiscover ∧ ∃ v, e = .service (some v) none)
      (hp : s'.phase = .enableNotification) (ht : s'.transfer = s.transfer)
      (he : s'.error = s.error)
      (hd : ds = [.call (.enableNotifications true)])
  | prepares (hs : s.phase = .enableNotification) (hev : e = .notifications true none)
      (hp : s'.phase = .prepareForDownload) (ht : s'.transfer = s.transfer)
      (he : s'.error = s.error)
      (hd : ds = [.call (.command s.mode.prepareCommand)])
  | starts {image : Image} (hs : s.phase = .prepareForDownload) (hg : e.grants = true)
      (hi : s.image = some image) (hp : s'.phase = .startDownload)
      (ht : s'.transfer = s.transfer) (he : s'.error = s.error)
      (hd : ds = [.call (.command (.start (UInt32.ofNat image.size)))])
  | transfers {image : Image} {size : Nat} (hs : s.phase = .startDownload)
      (hg : e.grants = true) (hi : s.image = some image) (pos : 0 < size)
      (hst : s.transfer = .after image size 0 0) (hp : s'.phase = .dataTransfer)
      (ht : s'.transfer = .after image size 0 1) (he : s'.error = s.error)
      (hd : ds = [.call (.write .data (image.chunk size 0))])
  | next {image : Image} {size count : Nat} (hs : s.phase = .dataTransfer)
      (hev : e.acknowledges = true) (hi : s.image = some image) (pos : 0 < size)
      (lt : (count + 1) * size < image.size)
      (hst : s.transfer = .after image size count (count + 1))
      (hp : s'.phase = .dataTransfer)
      (ht : s'.transfer = .after image size (count + 1) (count + 2))
      (he : s'.error = s.error)
      (hd : ds = [.call (.write .data (image.chunk size (count + 1)))])
  | verifies {image : Image} {size count : Nat} (hs : s.phase = .dataTransfer)
      (hev : e.acknowledges = true) (hi : s.image = some image) (pos : 0 < size)
      (lt : count * size < image.size) (hall : image.covered size (count + 1) = image.size)
      (hst : s.transfer = .after image size count (count + 1))
      (hp : s'.phase = .verify) (hw : s'.wait = .write)
      (ht : s'.transfer = .after image size (count + 1) (count + 1))
      (he : s'.error = s.error)
      (hd : ds = [.call (.command (.verify image.crc))])
  | finishes (hs : s.phase = .verify)
      (hev : e.grants = true ∨ s.wait = .response ∧ ∃ error, e = .connection false error)
      (hp : s'.phase = .complete) (ht : s'.transfer = s.transfer)
      (he : s'.error = s.error) (hc : ∀ c ∈ Trace.calls ds, c = .disconnect)
  | fails (hp : s'.phase = .abort ∨ s'.phase = .complete ∨
        s.phase.isBeforeDownload = true ∧ s'.phase = s.phase)
      (he : s'.error.isSome = true) (ht : s'.transfer = s.transfer)
      (ha : s.phase = .dataTransfer → e.acknowledges = false)
      (hc : ∀ c ∈ Trace.calls ds, c = .disconnect ∨ c = .command .abort)

/-! ## Failing -/

theorem calls_parting (s : Session) : ∀ c ∈ s.parting, c = .disconnect := by
  intro c hc
  unfold parting at hc
  split at hc
  · simpa using hc
  · cases hc

theorem calls_map_call (cs : List DeviceCall) : Trace.calls (cs.map .call) = cs := by
  induction cs with
  | nil => rfl
  | cons c cs ih => exact congrArg (c :: ·) ih

theorem calls_closingSignals (s : Session) : Trace.calls s.closingSignals = [] := by
  unfold closingSignals
  split
  · rfl
  · split
    · split <;> rfl
    · rfl

theorem calls_farewell (s : Session) : Trace.calls s.farewell = [] := by
  unfold farewell
  rw [Trace.calls_append]
  have hr (b : Bool) : Trace.calls (if b = true then [Effect.release] else []) = [] := by
    cases b <;> rfl
  rw [hr, List.nil_append]
  exact calls_closingSignals _

/-- The end brings no other call than the one that closes the link. -/
theorem Poised.calls_complete {s : Session} (h : s.Poised .complete) :
    ∀ c ∈ Trace.calls (s.proceed .complete).effects, c = .disconnect := by
  have hl := landing_complete h
  generalize s.proceed .complete = t at hl
  cases hl with
  | broken =>
    intro c hc
    rw [calls_map_call] at hc
    exact s.calls_parting c hc
  | closed =>
    intro c hc
    simp only [stay, Trace.calls_append, calls_map_call, calls_farewell, List.append_nil] at hc
    exact s.calls_parting c hc

theorem Poised.books_complete {s : Session} (h : s.Poised .complete) :
    (s.proceed .complete).session.phase = .complete ∧
      (s.proceed .complete).session.transfer = s.transfer ∧
      (s.proceed .complete).session.error = s.error := by
  have hl := landing_complete h
  generalize s.proceed .complete = t at hl
  cases hl <;> exact ⟨rfl, rfl, rfl⟩

theorem Poised.notify {s : Session} (h : s.Poised .enableNotification) :
    (s.proceed .enableNotification).session.phase = .enableNotification ∧
      (s.proceed .enableNotification).session.transfer = s.transfer ∧
      (s.proceed .enableNotification).session.error = s.error ∧
      Trace.dealings (s.proceed .enableNotification).effects
        = [.call (.enableNotifications true)] := by
  have hl := landing_complete h
  generalize s.proceed .enableNotification = t at hl
  cases hl
  exact ⟨rfl, rfl, rfl, rfl⟩

/-- Once an error is recorded, all that may still be asked of the device is to give up and to close
the link. -/
theorem Poised.fails {s : Session} {p : Phase} (h : s.Poised p) (he : s.error.isSome = true)
    (hp : p = .abort ∨ p = .complete) :
    ((s.proceed p).session.phase = .abort ∨ (s.proceed p).session.phase = .complete) ∧
      (s.proceed p).session.error.isSome = true ∧ (s.proceed p).session.transfer = s.transfer ∧
      ∀ c ∈ Trace.calls (s.proceed p).effects, c = .disconnect ∨ c = .command .abort := by
  have ends {r : Session} (hr : r.Poised .complete) (her : r.error.isSome = true) :
      ((r.proceed .complete).session.phase = .abort ∨
        (r.proceed .complete).session.phase = .complete) ∧
      (r.proceed .complete).session.error.isSome = true ∧
        (r.proceed .complete).session.transfer = r.transfer ∧
        ∀ c ∈ Trace.calls (r.proceed .complete).effects, c = .disconnect ∨ c = .command .abort :=
    ⟨.inr hr.books_complete.1, hr.books_complete.2.2 ▸ her, hr.books_complete.2.1,
      fun c hc => .inl (hr.calls_complete c hc)⟩
  rcases hp with rfl | rfl
  · have hl := landing_complete h
    generalize s.proceed .abort = t at hl
    cases hl with
    | abort =>
      refine ⟨.inl rfl, he, rfl, ?_⟩
      intro c hc
      have hc : c ∈ [DeviceCall.command .abort] := hc
      exact .inr (List.mem_singleton.mp hc)
    | unlinked => exact ends h.arrive_complete he
  · exact ends h he

/-! ## Every step is a deed -/

theorem dealings_chunkReport (s : Session) : Trace.dealings s.chunkReport = [] := by
  unfold chunkReport
  split <;> rfl

theorem dealings_after {t : Turn} {es : List Effect} (h : Trace.dealings es = []) :
    Trace.dealings (t.after es).effects = Trace.dealings t.effects := by
  rw [Turn.effects_after, Trace.dealings_append, h, List.nil_append]

section steps

variable {s : Session} {e : Event}

/-- Entering a phase that gives up or ends the upgrade, with an error recorded. -/
theorem Poised.deed_fails {r : Session} {p : Phase} (h : r.Poised p)
    (he : r.error.isSome = true) (hp : p = .abort ∨ p = .complete)
    (ht : r.transfer = s.transfer) (ha : s.phase = .dataTransfer → e.acknowledges = false) :
    Deed s e (r.proceed p).session (Trace.dealings (r.proceed p).effects) :=
  have hfails := h.fails he hp
  .fails (hfails.1.imp_right .inl) hfails.2.1 (hfails.2.2.1.trans ht) ha
    (by rw [Trace.calls_dealings]; exact hfails.2.2.2)

theorem Advance.dealings {s' : Session} {es : List Effect} {p : Phase}
    (ha : Advance s e s' es p) : Trace.dealings es = [] := by
  cases ha with
  | transferred => exact s.dealings_chunkReport
  | _ => rfl

variable (h : s.Sound) (hf : s.finished = false)

include h hf

theorem Advance.deed {s' : Session} {es : List Effect} {p : Phase} (ha : Advance s e s' es p) :
    Deed s e (s'.proceed p).session (Trace.dealings (s'.proceed p).effects) := by
  have hpoised := ha.poised h hf
  have hl := landing_complete hpoised
  -- the equation is kept, since a landing that leads on is told by lemmas about `proceed`
  generalize hs' : s'.proceed p = t at hl
  cases ha with
  | start hp =>
    cases hl with
    | noImage | noDevice =>
      exact (hpoised.arrive_complete.recordError _).deed_fails (by simp) (.inr rfl) (by simp)
        fun _ => rfl
    | connecting => exact .connects hp rfl rfl rfl (.inl rfl)
    | connect => exact .connects hp rfl rfl rfl (.inr rfl)
  | connected hp =>
    cases hl with
    | discover => exact .discovers hp rfl rfl rfl rfl rfl
  | discovered hp =>
    cases hl with
    | read => exact .reads hp rfl rfl rfl rfl (.inr rfl)
    | askMesh => exact .reads hp rfl rfl rfl rfl (.inl rfl)
    | skip =>
      obtain ⟨hq, ht, he, hd⟩ := (hpoised.arrive_notify rfl).notify
      exact .notifies (.inr ⟨hp, _, rfl⟩) hq ht he hd
  | informed hw | uninformed hw =>
    obtain ⟨hq, ht, he, hd⟩ := hpoised.notify
    subst hs'
    exact .notifies (.inl (h.phase_of_appInfo hw)) hq ht he hd
  | identified hw =>
    obtain ⟨hq, ht, he, hd⟩ := hpoised.notify
    subst hs'
    exact .notifies (.inl (h.phase_of_meshMetadata hw)) hq ht he hd
  | notifying hp =>
    cases hl with
    | prepare => exact .prepares hp rfl rfl rfl rfl rfl
  | prepared hp hg =>
    obtain ⟨image, hi⟩ := h.imaged (by rw [hp]; rfl)
    have hsize : s.transfer.imageSize = image.size := (h.stands image hi).books.imageSize_eq
    cases hl with
    | start =>
      refine .starts hp hg hi rfl rfl rfl ?_
      rw [← hsize]
      rfl
  | started hp hg =>
    cases hl with
    | transfer hi hd pos ht => exact .transfers hp hg hi pos ht rfl rfl rfl rfl
  | transferred hp hall =>
    cases hl with
    | @verify image d hi hd =>
      have hi : s.image = some image := hi
      obtain ⟨size, count, pos, lt, hst⟩ := h.flying hp hi
      have hack := transfer_acknowledged lt hst
      rw [hack, Transfer.isDone_after_self] at hall
      exact .verifies hp rfl hi pos lt hall hst rfl rfl hack rfl rfl
  | verified hp hg =>
    have hb := hpoised.books_complete
    subst hs'
    exact .finishes hp (.inl hg) hb.1 hb.2.1 hb.2.2
      (by rw [Trace.calls_dealings]; exact hpoised.calls_complete)
  | @rebooted error hp hw =>
    have hb := hpoised.books_complete
    subst hs'
    exact .finishes hp (.inr ⟨hw, error, rfl⟩) hb.1 hb.2.1 hb.2.2
      (by rw [Trace.calls_dealings]; exact hpoised.calls_complete)
  | gaveUp hp =>
    subst hs'
    exact hpoised.deed_fails (by simpa [cancelTimer] using h.abort hp) (.inr rfl)
      (by simp [cancelTimer]) (by simp [hp])

theorem Failure.deed {s' : Session} {cause : Cause} {p : Phase} (ha : Failure s e s' cause p) :
    Deed s e ((s'.recordError cause).proceed p).session
      (Trace.dealings ((s'.recordError cause).proceed p).effects) := by
  have hpoised := ha.poised h hf
  have ht : s'.transfer = s.transfer := by
    cases ha <;> rfl
  have hn : s.phase = .dataTransfer → e.acknowledges = false := by
    intro hs
    cases ha <;> simp_all [Event.acknowledges]
  exact hpoised.deed_fails (by simp) ha.gives_up (by simpa using ht) hn

theorem Reply.deed {t : Turn} (hr : Reply s e t) :
    Deed s e t.session (Trace.dealings t.effects) := by
  cases hr with
  | rest hx =>
    refine .stays (s.phase_noting e) (s.transfer_noting e) (s.error_noting e) rfl ?_
      (.inl (s.wait_noting e))
    intro hp
    -- in the transfer an acknowledgement would have been expected
    have hw := h.chunkAck_iff.mpr hp
    unfold Event.acknowledges
    split
    · simp [expects, hw] at hx
    · rfl
  | advance ha =>
    rw [dealings_after ha.dealings]
    exact ha.deed h hf
  | failure ha => exact ha.deed h hf
  | closing hu hb =>
    refine .fails (.inr (.inr ⟨hb, by simp⟩)) (by simp) (by simp) (fun _ => rfl) ?_
    intro c hc
    have hc : c ∈ [DeviceCall.disconnect] := hc
    exact .inl (List.mem_singleton.mp hc)
  | written hc => exact .stays rfl rfl rfl rfl (fun _ => rfl) (.inr (.inr rfl))
  | asks hw =>
    exact .stays rfl rfl rfl rfl (fun _ => rfl) (.inr (.inl (h.phase_of_appInfo hw)))
  | next hp hi hd pos ht lt =>
    refine .next hp rfl hi pos lt ht hp rfl rfl ?_
    rw [dealings_after s.dealings_chunkReport]
    rfl
  | overflow => exact .stays rfl rfl rfl rfl (fun _ => rfl) (.inl rfl)

end steps

/-- A timeout never tells of anything that takes an upgrade on, but for a device that has nothing to
say of itself. -/
theorem failureEvent?_fails {s : Session} {error : LinkError} {e : Event}
    (h : s.failureEvent? error = some e) :
    e.grants = false ∧ e.acknowledges = false ∧ (∀ error, e ≠ .connection true error) ∧
      (∀ v, e ≠ .service (some v) none) ∧ e ≠ .notifications true none ∧
      e ≠ .written .controlPoint (.ok none) ∧ (∀ dfu, e ≠ .abort dfu) ∧
      ∀ error, e = .connection false error → s.phase = .connect := by
  unfold failureEvent? at h
  cases hp : s.phase <;> simp only [hp] at h
  case idle | complete => cases h
  case readAppInfo =>
    split at h <;> cases h <;> simp [Event.grants, Event.answer?, Event.acknowledges]
  all_goals
    cases h
    simp [Event.grants, Event.answer?, Event.acknowledges]

theorem Deed.timeout {s s' : Session} {e : Event} {ds : List Effect} {error : LinkError}
    {id : Nat} (he : s.failureEvent? error = some e)
    (h : Deed { s with timer := s.timer.fire } e s' ds) : Deed s (.timeout id) s' ds := by
  obtain ⟨hg, ha, hc, hv, hn, hw, -, hd⟩ := failureEvent?_fails he
  -- no failure of a step is an event on which a command or a chunk goes out
  cases h with
  | stays hp ht herr hds hna hwait =>
    refine .stays hp ht herr hds (fun _ => rfl) ?_
    rcases hwait with hwait | hwait | hwait
    · exact .inl hwait
    · exact .inr (.inl hwait)
    · exact absurd hwait hw
  | connects hs =>
    unfold failureEvent? at he
    rw [hs] at he
    cases he
  | discovers hs hev => exact absurd hev (hc _)
  | reads hs hev => exact absurd hev (hv _)
  | notifies hs hp ht herr hds =>
    rcases hs with hs | ⟨-, v, hev⟩
    · exact .notifies (.inl hs) hp ht herr hds
    · exact absurd hev (hv v)
  | prepares hs hev => exact absurd hev hn
  | starts hs hgr => simp [hg] at hgr
  | transfers hs hgr => simp [hg] at hgr
  | next hs hev => simp [ha] at hev
  | verifies hs hev => simp [ha] at hev
  | finishes hs hev =>
    rcases hev with hgr | ⟨-, error, hev⟩
    · simp [hg] at hgr
    · have hcon := hd error hev
      rw [show s.phase = .verify from hs] at hcon
      cases hcon
  | fails hp herr ht hna hcalls => exact .fails hp herr ht (fun _ => rfl) hcalls

/-- Whatever comes of an event is one of the deeds. -/
theorem Sound.deed {s : Session} (h : s.Sound) (e : Event) :
    Deed s e (s.handle e).session (Trace.dealings (s.handle e).effects) := by
  cases hf : s.finished with
  | true =>
    have hp := h.finished_iff.mp hf
    rw [handle_of_finished hf]
    exact .stays rfl rfl rfl rfl (by simp [hp]) (.inl rfl)
  | false =>
    have hs := step_complete h hf e
    generalize s.handle e = t at hs
    cases hs with
    | reply _ hr => exact hr.deed h hf
    | stale => exact .stays rfl rfl rfl rfl (fun _ => rfl) (.inl rfl)
    | expired hdue he hr =>
      rw [dealings_after rfl]
      exact (hr.deed (h.withTimer (h.not_idle_of_due hdue) s.timer.fire) hf).timeout he

/-- An error stays. -/
theorem Deed.error_isSome {s s' : Session} {e : Event} {ds : List Effect} (h : Deed s e s' ds)
    (he : s.error.isSome = true) : s'.error.isSome = true := by
  have kept (hk : s'.error = s.error) : s'.error.isSome = true := hk ▸ he
  cases h with
  | stays _ _ hk | connects _ _ _ hk | discovers _ _ _ _ hk | reads _ _ _ _ hk
  | notifies _ _ _ hk | prepares _ _ _ _ hk | starts _ _ _ _ _ hk | transfers _ _ _ _ _ _ _ hk
  | next _ _ _ _ _ _ _ _ hk | verifies _ _ _ _ _ _ _ _ _ _ hk | finishes _ _ _ _ hk =>
    exact kept hk
  | fails _ hk => exact hk

/-! ## What the device is asked -/

/-- Why something is asked of the device: what the session stood in and was told. -/
inductive Asked (s : Session) (e : Event) : DeviceCall → Prop where
  | link {c : DeviceCall} (hc : ∀ channel bytes, c ≠ .write channel bytes) : Asked s e c
  | prepare (hs : s.phase = .enableNotification) (hev : e = .notifications true none) :
      Asked s e (.command s.mode.prepareCommand)
  | start {image : Image} (hs : s.phase = .prepareForDownload) (hg : e.grants = true)
      (hi : s.image = some image) : Asked s e (.command (.start (UInt32.ofNat image.size)))
  | first {image : Image} {size : Nat} (hs : s.phase = .startDownload) (hg : e.grants = true) :
      Asked s e (.write .data (image.chunk size 0))
  | next {image : Image} {size count : Nat} (hs : s.phase = .dataTransfer)
      (hev : e.acknowledges = true) : Asked s e (.write .data (image.chunk size (count + 1)))
  | verify {image : Image} {size count : Nat} (hs : s.phase = .dataTransfer)
      (hev : e.acknowledges = true) (hi : s.image = some image) (pos : 0 < size)
      (lt : count * size < image.size) (hall : image.covered size (count + 1) = image.size)
      (hst : s.transfer = .after image size count (count + 1)) :
      Asked s e (.command (.verify image.crc))
  | abort : Asked s e (.command .abort)

theorem Deed.asked {s s' : Session} {e : Event} {ds : List Effect} (h : Deed s e s' ds)
    {c : DeviceCall} (hc : c ∈ Trace.calls ds) : Asked s e c := by
  have one {c' : DeviceCall} (hd : ds = [.call c']) : c = c' := by
    rw [hd] at hc
    exact List.mem_singleton.mp hc
  cases h with
  | stays hp ht he hd =>
    rw [hd] at hc
    cases hc
  | connects hs hp ht he hd =>
    rcases hd with hd | hd
    · rw [hd] at hc
      cases hc
    · rw [hd] at hc
      obtain rfl : c = .connect := List.mem_singleton.mp hc
      exact .link nofun
  | reads hs hev hp ht he hd =>
    rcases hd with hd | hd
    · rw [hd] at hc
      cases hc
    · obtain rfl := one hd
      exact .link nofun
  | discovers hs hev hp ht he hd | notifies hs hp ht he hd =>
    obtain rfl := one hd
    exact .link nofun
  | prepares hs hev hp ht he hd =>
    obtain rfl := one hd
    exact .prepare hs hev
  | starts hs hg hi hp ht he hd =>
    obtain rfl := one hd
    exact .start hs hg hi
  | transfers hs hg hi pos hst hp ht he hd =>
    obtain rfl := one hd
    exact .first hs hg
  | next hs hev hi pos lt hst hp ht he hd =>
    obtain rfl := one hd
    exact .next hs hev
  | verifies hs hev hi pos lt hall hst hp hw ht he hd =>
    obtain rfl := one hd
    exact .verify hs hev hi pos lt hall hst
  | finishes hs hev hp ht he hcs =>
    obtain rfl := hcs c hc
    exact .link nofun
  | fails hp he ht ha hcs =>
    rcases hcs c hc with rfl | rfl
    · exact .link nofun
    · exact .abort

end Session
end OtaUpgrade
