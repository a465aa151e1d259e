import Mathlib
import OtaUpgrade.Proofs.Link.Soundness
import OtaUpgrade.Proofs.Link.Willing
import OtaUpgrade.Proofs.Session.Advancing
import OtaUpgrade.Proofs.Session.Deadline

/-!
A session and a peripheral that refuses nothing go through an upgrade side by side. Between two
events all that is still to come are the replies to what the session waits for, and the peripheral
has seen what the session has got to (`Abreast`). Each phase that is entered leaves the two abreast
again, with fewer moves left to the end (`Resumes`).
-/
namespace OtaUpgrade

namespace Trace

variable {es : List Effect} (h : ∀ e ∈ es, ∃ r, e = Effect.report r)

include h

theorem calls_of_reports : calls es = [] :=
  List.filterMap_eq_nil_iff.mpr fun e he => by
    obtain ⟨r, rfl⟩ := h e he
    rfl

theorem meshRequests_of_reports : meshRequests es = [] :=
  List.filterMap_eq_nil_iff.mpr fun e he => by
    obtain ⟨r, rfl⟩ := h e he
    rfl

theorem bound_of_reports (b : Bool) : bound b es = b := by
  induction es with
  | nil => rfl
  | cons e es ih =>
    obtain ⟨r, rfl⟩ := h e List.mem_cons_self
    exact ih fun e he => h e (List.mem_cons_of_mem _ he)

end Trace

/-- What a peripheral replies comes from its adapter. -/
theorem PeripheralSetup.fromDevice_of_mem_replies {setup : PeripheralSetup} {p : Phase} {w : Wait}
    {e : Event} (he : e ∈ setup.replies p w) : e.fromDevice = true := by
  have hsequel (p : Phase) : (setup.sequel p).fromDevice = true := by
    unfold sequel
    split <;> rfl
  have happInfo : setup.appInfoReply.fromDevice = true := by
    unfold appInfoReply
    split <;> rfl
  have hcommand {p : Phase} (he : e ∈ setup.commandReplies p) : e.fromDevice = true := by
    unfold commandReplies at he
    split at he
    · rcases List.mem_cons.mp he with rfl | he
      · rfl
      · rw [List.mem_singleton.mp he]
        exact hsequel p
    · rw [List.mem_singleton.mp he]
      rfl
  unfold replies at he
  split at he
  case h_6 => exact hcommand he
  case h_8 => cases he
  all_goals
    rw [List.mem_singleton.mp he]
    first | rfl | exact happInfo | exact hsequel _

/-- How many moves the end of the upgrade is away: sixteen for each phase, of which eight are gone
once the mesh core is asked, and eight for each byte that was not acknowledged. -/
def Session.movesLeft (s : Session) : Nat :=
  16 * s.phase.remaining + (if s.wait = .meshMetadata then 0 else 8)
    + 8 * (s.transfer.imageSize - s.transfer.offset)

/-- How many it is away on the way to a phase. -/
def Session.movesFrom (s : Session) (p : Phase) : Nat :=
  16 * p.remaining + 15 + 8 * (s.transfer.imageSize - s.transfer.offset)

theorem Session.movesLeft_pos (s : Session) : 0 < s.movesLeft := by
  have hp : 0 < s.phase.remaining := by cases s.phase <;> decide
  unfold movesLeft
  omega

theorem Session.movesLeft_arrived {s r : Session} {p : Phase} (hp : r.phase = p)
    (hsize : r.transfer.imageSize = s.transfer.imageSize)
    (hoffset : r.transfer.offset = s.transfer.offset) : r.movesLeft + 5 ≤ s.movesFrom p := by
  unfold movesLeft movesFrom
  rw [hp, hsize, hoffset]
  split <;> omega

theorem Session.movesFrom_lt {s s' : Session} {p : Phase}
    (hp : p.remaining < s.phase.remaining)
    (hsize : s'.transfer.imageSize = s.transfer.imageSize)
    (hoffset : s.transfer.offset ≤ s'.transfer.offset) : s'.movesFrom p < s.movesLeft := by
  unfold movesLeft movesFrom
  omega

/-- An upgrade with everything that it depends on, nothing of which is at fault. -/
structure Undertaking where
  config : Config
  mode : Mode
  image : Image
  device : Device
  setup : PeripheralSetup
  variant : Variant
  /-- Most bytes of a chunk. -/
  size : Nat
  sized : config.chunkSizeFor? device.mtu device.overhead = some size
  pos : 0 < size
  sturdy : device.breaksOn = []
  willing : setup.Willing variant

namespace Undertaking

/-- A session of the undertaking that is not over and has met no error. -/
structure Carries (u : Undertaking) (s : Session) : Prop where
  config : s.config = u.config
  mode : s.mode = u.mode
  image : s.image = some u.image
  device : s.device = some u.device
  unfinished : s.finished = false
  error : s.error = none

/-- A session of the undertaking with what it knows in the phase. -/
structure Pursued (u : Undertaking) (s : Session) (p : Phase) : Prop extends u.Carries s where
  /-- Nobody else has requested the connection. -/
  free : p = .idle → s.guard.has .connection = false
  sized : .serviceDiscover ≤ p → s.transfer.chunkSize = u.size
  variant : .readAppInfo ≤ p → s.variant = some u.variant

/-- The books of a session name no other chunk size. -/
theorem Pursued.size_eq {u : Undertaking} {s : Session} {p : Phase} (hs : u.Pursued s p)
    (hp : .serviceDiscover ≤ p) {image : Image} {size count begun : Nat}
    (ht : s.transfer = .after image size count begun) : size = u.size := by
  have hsized := hs.sized hp
  rwa [ht] at hsized

/-- What is to come are the replies to what the session waits for, and the peripheral behind them
has seen what there was to see. -/
structure Abreast (u : Undertaking) (s : Session) (queue : List Event) (q : Peripheral) : Prop where
  queue : queue = u.setup.replies s.phase s.wait
  peripheral : ∃ log, q = { setup := u.setup, log } ∧
    log.Shows u.mode u.image s.transfer s.phase

/-- The moves that are left after a turn: for the session until the end, and for the worker and the
mesh core because of the turn. -/
def toDo (q : Peripheral) (t : Turn) : Nat :=
  t.session.movesLeft + 3 * (Trace.calls t.effects).length
    + (Link.answeredAll q (Trace.calls t.effects)).1.length
    + 2 * (Trace.meshRequests t.effects).length

/-- A turn that leaves the session under way and waiting, abreast of its peripheral, with at most
`n` moves left. -/
structure Resumes (u : Undertaking) (n : Nat) (bound : Bool) (queue : List Event) (q : Peripheral)
    (t : Turn) : Prop where
  whole : t.crash? = none
  begun : t.session.phase ≠ .idle
  pursued : u.Pursued t.session t.session.phase
  abreast : u.Abreast t.session (queue ++ (Link.answeredAll q (Trace.calls t.effects)).1)
    (Link.answeredAll q (Trace.calls t.effects)).2
  spent : toDo q t ≤ n
  bound : Trace.bound bound t.effects = true

variable {u : Undertaking} {s r : Session} {n : Nat} {b : Bool} {queue : List Event}
  {q : Peripheral} {log : PeripheralLog} {t : Turn} {es : List Effect}

theorem Resumes.mono (h : u.Resumes n b queue q t) {m : Nat} (hm : n ≤ m) :
    u.Resumes m b queue q t :=
  ⟨h.whole, h.begun, h.pursued, h.abreast, Nat.le_trans h.spent hm, h.bound⟩

theorem toDo_stay (q : Peripheral) (r : Session) (es : List Effect) :
    toDo q (r.stay es) = r.movesLeft + 3 * (Trace.calls es).length
      + (Link.answeredAll q (Trace.calls es)).1.length + 2 * (Trace.meshRequests es).length :=
  rfl

/-- Effects in front that ask nothing leave as much to do. -/
theorem toDo_after (hcalls : Trace.calls es = []) (hasks : Trace.meshRequests es = []) :
    Trace.calls (t.after es).effects = Trace.calls t.effects ∧ toDo q (t.after es) = toDo q t := by
  have hcs : Trace.calls (t.after es).effects = Trace.calls t.effects := by
    rw [Turn.effects_after, Trace.calls_append, hcalls, List.nil_append]
  have hms : Trace.meshRequests (t.after es).effects = Trace.meshRequests t.effects := by
    rw [Turn.effects_after, Trace.meshRequests_append, hasks, List.nil_append]
  refine ⟨hcs, ?_⟩
  rw [toDo, toDo, hcs, hms, Turn.session_after]

/-- They matter only if they bind the device. -/
theorem Resumes.after {b' : Bool} (h : u.Resumes n b' queue q t) (hcalls : Trace.calls es = [])
    (hasks : Trace.meshRequests es = []) (hb : Trace.bound b es = b') :
    u.Resumes n b queue q (t.after es) := by
  obtain ⟨hcs, htoDo⟩ := toDo_after (t := t) (q := q) hcalls hasks
  refine ⟨h.whole, h.begun, h.pursued, ?_, ?_, ?_⟩
  · rw [hcs]
    exact h.abreast
  · rw [htoDo]
    exact h.spent
  · have hbound := h.bound
    rw [← hb] at hbound
    rw [Turn.effects_after, Trace.bound, List.foldl_append]
    exact hbound

/-- Reports in front change nothing. -/
theorem Resumes.reported (h : u.Resumes n b queue q t)
    (hes : ∀ e ∈ es, ∃ r, e = Effect.report r) : u.Resumes n b queue q (t.after es) :=
  h.after (Trace.calls_of_reports hes) (Trace.meshRequests_of_reports hes)
    (Trace.bound_of_reports hes b)

/-- The device is asked for what its peripheral replies to. -/
theorem Pursued.ask (hr : u.Pursued r r.phase) (hi : r.phase ≠ .idle) {c : DeviceCall}
    (hc : u.setup.Replies log c (u.setup.replies r.phase r.wait)
      (·.Shows u.mode u.image r.transfer r.phase)) (hn : r.movesLeft + 5 ≤ n) :
    u.Resumes n true [] { setup := u.setup, log } (r.ask u.device c) := by
  obtain ⟨log', hx, hf⟩ := hc
  have hcs : Trace.calls (r.ask u.device c).effects = [c] := rfl
  have hms : Trace.meshRequests (r.ask u.device c).effects = [] := rfl
  refine ⟨?_, hi, hr, ?_, ?_, rfl⟩
  · simp [Turn.crash?, Session.ask, u.sturdy]
  · rw [hcs]
    refine ⟨?_, log', ?_, hf⟩
    · simp [Link.answeredAll, hx]
    · simp [Link.answeredAll, hx]
  · have hl := u.setup.length_replies_le r.phase r.wait
    simp only [toDo, hcs, hms, Link.answeredAll, hx, List.append_nil, List.length_nil,
      List.length_singleton, Session.session_ask]
    omega

/-- The session waits without having asked anything more of its device. -/
theorem Pursued.stay (hr : u.Pursued r r.phase) (hi : r.phase ≠ .idle) (ha : u.Abreast r queue q)
    (hcalls : Trace.calls es = []) (hb : Trace.bound b es = true)
    (hn : r.movesLeft + 2 * (Trace.meshRequests es).length ≤ n) :
    u.Resumes n b queue q (r.stay es) := by
  have hcs : Trace.calls (r.stay es).effects = [] := hcalls
  refine ⟨rfl, hi, hr, ?_, ?_, hb⟩
  · rw [hcs, Link.answeredAll, List.append_nil]
    exact ha
  · rw [toDo_stay, hcalls]
    exact hn

/-! ## Entering a phase -/

/-- What a session knows of the undertaking it still knows on arriving. -/
theorem Pursued.arrive {p : Phase} (hs : u.Pursued s p) (hp : p ≠ .idle) :
    u.Pursued (s.arrive p) p :=
  ⟨⟨hs.config, hs.mode, hs.image, hs.device, hs.unfinished, hs.error⟩, fun hi => absurd hi hp,
    hs.sized, hs.variant⟩

theorem Pursued.withTransfer {p : Phase} (hs : u.Pursued s p) {t : Transfer} {w : Wait}
    (ht : .serviceDiscover ≤ p → t.chunkSize = u.size) :
    u.Pursued { s with transfer := t, wait := w } p :=
  ⟨⟨hs.config, hs.mode, hs.image, hs.device, hs.unfinished, hs.error⟩, hs.free, ht, hs.variant⟩

theorem Pursued.withGuard {p : Phase} (hs : u.Pursued s p) (hp : p ≠ .idle) {g : Guard} {w : Wait} :
    u.Pursued { s with guard := g, wait := w } p :=
  ⟨⟨hs.config, hs.mode, hs.image, hs.device, hs.unfinished, hs.error⟩, fun hi => absurd hi hp,
    hs.sized, hs.variant⟩

theorem Pursued.connect (hs : u.Pursued s .connect) (hg : s.guard.has .connection = false)
    (hl : log.Shows u.mode u.image s.transfer .idle) :
    u.Resumes (s.movesFrom .connect) b [] { setup := u.setup, log } (s.proceed .connect) := by
  have hr := (hs.arrive (by decide)).withGuard (by decide) (g := s.guard.begin .connection)
    (w := .nothing)
  rw [Session.proceed, Session.enter_connect hs.image hs.device hg, Session.settle_after,
    Session.settle_ask]
  exact (hr.ask (by rintro ⟨⟩) (u.willing.connect hl)
    (Session.movesLeft_arrived rfl rfl rfl)).after rfl rfl rfl

theorem Pursued.discover (hs : u.Pursued s .serviceDiscover)
    (hl : log.Shows u.mode u.image s.transfer .connect) :
    u.Resumes (s.movesFrom .serviceDiscover) true [] { setup := u.setup, log }
      (s.proceed .serviceDiscover) := by
  have hr := hs.arrive (by decide)
  rw [Session.proceed, Session.enter_serviceDiscover hs.device, Session.settle_after,
    Session.settle_ask]
  exact (hr.ask (by rintro ⟨⟩) (PeripheralSetup.Willing.discover hl)
    (Session.movesLeft_arrived rfl rfl rfl)).after rfl rfl rfl

theorem Pursued.notify (hs : u.Pursued s .enableNotification)
    (hl : log.Shows u.mode u.image s.transfer .readAppInfo) :
    u.Resumes (s.movesFrom .enableNotification) true [] { setup := u.setup, log }
      (s.proceed .enableNotification) := by
  have hr := hs.arrive (by decide)
  rw [Session.proceed, Session.enter_enableNotification hs.device, Session.settle_after,
    Session.settle_ask]
  exact (hr.ask (by rintro ⟨⟩) (u.willing.notify hl)
    (Session.movesLeft_arrived rfl rfl rfl)).after rfl rfl rfl

/-- The application info is read, asked of the mesh core, or done without. -/
theorem Pursued.read (hs : u.Pursued s .readAppInfo)
    (hl : log.Shows u.mode u.image s.transfer .serviceDiscover) :
    u.Resumes (s.movesFrom .readAppInfo) true [] { setup := u.setup, log }
      (s.proceed .readAppInfo) := by
  have hv := hs.variant (by decide)
  have hl' : log.Shows u.mode u.image s.transfer .readAppInfo :=
    hl.early (by decide) (by decide) (by decide)
  have harrive := hs.arrive (by decide)
  cases hc : u.variant.has .appInfo with
  | true =>
    have hr := harrive.withGuard (by decide) (g := s.guard) (w := .appInfo)
    rw [Session.proceed, Session.enter_readAppInfo hv hs.device hc, Session.settle_after,
      Session.settle_ask]
    exact (hr.ask (by rintro ⟨⟩) (u.willing.read hl hc)
      (Session.movesLeft_arrived rfl rfl rfl)).after rfl rfl rfl
  | false =>
    cases ha : s.askable? with
    | some address =>
      have hr := harrive.withGuard (by decide) (g := s.guard.begin .componentMetadata)
        (w := .meshMetadata)
      have hone :
          2 * (Trace.meshRequests [(s.arrive .readAppInfo).arrival, .askMesh address]).length ≤ 5 :=
        Nat.le_add_right 2 3
      rw [Session.proceed, Session.enter_readAppInfo_asks hv hs.device hc ha, Session.settle_stay]
      exact hr.stay (by rintro ⟨⟩) ⟨rfl, log, rfl, hl'⟩ rfl rfl
        (Nat.le_trans (Nat.add_le_add_left hone _) (Session.movesLeft_arrived rfl rfl rfl))
    | none =>
      have hn : u.Pursued (s.arrive .readAppInfo) .enableNotification :=
        ⟨⟨hs.config, hs.mode, hs.image, hs.device, hs.unfinished, hs.error⟩,
          by rintro ⟨⟩, fun _ => hs.sized (by decide), fun _ => hv⟩
      have hle : (s.arrive .readAppInfo).movesFrom .enableNotification ≤ s.movesFrom .readAppInfo :=
        Nat.add_le_add_right (by decide) _
      rw [Session.proceed, Session.enter_readAppInfo_skips hv hs.device hc ha, Session.settle_after,
        Session.settle_moveTo]
      exact ((hn.notify hl').mono hle).after rfl rfl rfl

theorem Pursued.prepare (hs : u.Pursued s .prepareForDownload)
    (hl : log.Shows u.mode u.image s.transfer .enableNotification)
    (ht : s.transfer.chunksSent = 0) :
    u.Resumes (s.movesFrom .prepareForDownload) true [] { setup := u.setup, log }
      (s.proceed .prepareForDownload) := by
  have hr := (hs.arrive (by decide)).withGuard (by decide) (g := s.guard) (w := .write)
  rw [Session.proceed, Session.enter_prepareForDownload hs.device, Session.settle_after,
    Session.settle_ask, hs.mode]
  exact (hr.ask (by rintro ⟨⟩) (u.willing.prepare hl ht)
    (Session.movesLeft_arrived rfl rfl rfl)).after rfl rfl rfl

theorem Pursued.start (hs : u.Pursued s .startDownload)
    (hl : log.Shows u.mode u.image s.transfer .prepareForDownload)
    (ht : s.transfer.imageSize = u.image.size) :
    u.Resumes (s.movesFrom .startDownload) true [] { setup := u.setup, log }
      (s.proceed .startDownload) := by
  have hr := (hs.arrive (by decide)).withGuard (by decide) (g := s.guard) (w := .write)
  rw [Session.proceed, Session.enter_startDownload hs.device, Session.settle_after,
    Session.settle_ask, ht]
  exact (hr.ask (by rintro ⟨⟩) (u.willing.start hl)
    (Session.movesLeft_arrived rfl rfl rfl)).after rfl rfl rfl

theorem Pursued.transfer (hs : u.Pursued s .dataTransfer)
    (hl : log.Shows u.mode u.image s.transfer .startDownload)
    (ht : s.transfer = .after u.image u.size 0 0) :
    u.Resumes (s.movesFrom .dataTransfer) true [] { setup := u.setup, log }
      (s.proceed .dataTransfer) := by
  have hr : u.Pursued ((s.arrive .dataTransfer).sending u.image u.size 0) .dataTransfer :=
    (hs.arrive (by decide)).withTransfer fun _ => rfl
  rw [ht] at hl
  have hreplies : u.setup.Replies log (.write .data (u.image.chunk u.size 0))
      (u.setup.replies .dataTransfer .chunkAck)
      (·.Shows u.mode u.image (.after u.image u.size 0 1) .dataTransfer) :=
    u.willing.data hl (by decide) (by decide) rfl rfl rfl rfl
  rw [Session.proceed, Session.enter_dataTransfer hs.image hs.device ht u.pos, Session.settle_after,
    Session.settle_ask]
  refine (hr.ask (by rintro ⟨⟩) hreplies (Session.movesLeft_arrived rfl ?_ ?_)).after rfl rfl rfl
  · rw [ht]
    rfl
  · rw [ht]
    rfl

theorem Pursued.verify (hs : u.Pursued s .verify)
    (hl : log.Shows u.mode u.image s.transfer .dataTransfer)
    (hall : u.image.covered s.transfer.chunkSize s.transfer.chunksSent = u.image.size)
    (hcrc : s.transfer.crc.final = some u.image.crc) :
    u.Resumes (s.movesFrom .verify) true [] { setup := u.setup, log } (s.proceed .verify) := by
  have hr := (hs.arrive (by decide)).withGuard (by decide) (g := s.guard) (w := .write)
  rw [Session.proceed, Session.enter_verify hs.device hcrc, Session.settle_after,
    Session.settle_ask]
  exact (hr.ask (by rintro ⟨⟩) (u.willing.verify hl hall)
    (Session.movesLeft_arrived rfl rfl rfl)).after rfl rfl rfl

end Undertaking
end OtaUpgrade
