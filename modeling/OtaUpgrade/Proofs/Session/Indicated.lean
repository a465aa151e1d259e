import Mathlib
import OtaUpgrade.Proofs.Session.Advancing
import OtaUpgrade.Proofs.Session.Chronicle
import OtaUpgrade.Proofs.Session.CallScript

/-!
A command's status may come along with the write of the command or as an indication later. Whether
the one or the other makes no difference (`handle_indicated`): what the session waits for tells only
that the command was written, and every answer to a status goes on to another phase. So the form of
any of the statuses of a life may be changed (`Rephrased`).
-/
namespace OtaUpgrade

namespace Event

/-- The command was written, and its status came along. -/
def inline (status : Bytes) : Event := .written .controlPoint (.ok (some status))

/-- The command was written, and its status is still to come. -/
def unanswered : Event := .written .controlPoint (.ok none)

/-- The status came as an indication. -/
def indicated (status : Bytes) : Event := .value .controlPoint (some status) none

end Event

/-- The same happens, but some statuses come in the other form. -/
inductive Rephrased : List Happening → List Happening → Prop where
  | nil : Rephrased [] []
  | same {hs hs' : List Happening} (x : Happening) (h : Rephrased hs hs') :
    Rephrased (x :: hs) (x :: hs')
  | indicated {hs hs' : List Happening} (status : Bytes) (h : Rephrased hs hs') :
    Rephrased (.event (.inline status) :: hs)
      (.event .unanswered :: .event (.indicated status) :: hs')
  | inlined {hs hs' : List Happening} (status : Bytes) (h : Rephrased hs hs') :
    Rephrased (.event .unanswered :: .event (.indicated status) :: hs)
      (.event (.inline status) :: hs')

namespace Session

variable (s : Session)

/-! ## Where an event leaves a session -/

/-- An event is handled to the end. -/
theorem reaction_handle (e : Event) (hc : (s.handle e).crash? = none) :
    (s.handle e).reaction = .stay := by
  rcases reaction_settle (s.dispatch e) with hr | ⟨c, hr⟩
  · exact hr
  · exact absurd hr (Turn.reaction_ne_crash hc c)

/-- A run over one event is its turn. -/
theorem run_singleton (e : Event) : s.run [e] = s.handle e := by
  cases hc : (s.handle e).crash? with
  | some c => exact run_crash hc
  | none =>
    rw [run_event hc, run_nil, stay, Turn.after, List.append_nil, ← s.reaction_handle e hc]

/-! ## Statuses -/

/-- What a session waited for is forgotten on entering a phase. -/
theorem proceed_awaiting (w : Wait) (p : Phase) :
    ({ s with wait := w } : Session).proceed p = s.proceed p := rfl

theorem recordError_awaiting (w : Wait) (cause : Cause) :
    ({ s with wait := w } : Session).recordError cause
      = { s.recordError cause with wait := w } := by
  rw [recordError_eq, recordError_eq]

theorem settle_failTo_awaiting (w : Wait) (cause : Cause) (p : Phase) :
    settle (({ s with wait := w } : Session).failTo cause p) = settle (s.failTo cause p) := by
  rw [settle_failTo, settle_failTo, recordError_awaiting, proceed_awaiting]

theorem settle_moveTo_awaiting (w : Wait) (p : Phase) :
    settle (({ s with wait := w } : Session).moveTo p) = settle (s.moveTo p) := by
  rw [settle_moveTo, settle_moveTo, proceed_awaiting]

/-- A status takes a session on to another phase, whatever it waited for. -/
theorem settle_onStatus_awaiting (w : Wait) (command : Opcode) (status : Status) :
    settle (({ s with wait := w } : Session).onStatus command status)
      = settle (s.onStatus command status) := by
  have moves (p : Phase) := s.cancelTimer.settle_moveTo_awaiting w p
  have fails (cause : Cause) (p : Phase) := s.cancelTimer.settle_failTo_awaiting w cause p
  unfold onStatus
  dsimp only [cancelTimer] at moves fails ⊢
  split
  · split
    · exact moves _
    · exact fails _ _
  · split
    · exact moves _
    · exact fails _ _
  · split
    · exact moves _
    · exact fails _ _
  · exact moves _

/-- Once the command is written only its status is waited for. -/
theorem handle_unanswered :
    ∃ r : Session, s.handle .unanswered = r.stay ∧
      ∀ status, r.handle (.indicated status) = s.handle (.inline status) := by
  cases hf : s.finished with
  | true =>
    refine ⟨s, handle_of_finished hf _, fun status => ?_⟩
    rw [handle_of_finished hf, handle_of_finished hf]
  | false =>
    have hwritten : s.handle .unanswered = settle (s.onCommandWritten (.ok none)) :=
      handle_of_unfinished hf nofun
    have hinline (status : Bytes) :
        s.handle (.inline status) = settle (s.onCommandWritten (.ok (some status))) :=
      handle_of_unfinished hf nofun
    have hindicated (r : Session) (hr : r.finished = false) (status : Bytes) :
        r.handle (.indicated status) = settle (r.onIndication (some status)) :=
      handle_of_unfinished hr nofun
    cases hc : s.commandInHand? with
    | none =>
      refine ⟨s, ?_, fun status => ?_⟩
      · rw [hwritten, onCommandWritten, hc]
        exact settle_stay s []
      · rw [hinline, hindicated s hf, onCommandWritten, onIndication, hc]
    | some command =>
      have hc' : ({ s with wait := .response } : Session).commandInHand? = some command := by
        unfold commandInHand? at hc ⊢
        split at hc <;> first | exact hc | cases hc
      refine ⟨{ s with wait := .response }, ?_, fun status => ?_⟩
      · rw [hwritten, onCommandWritten, hc]
        exact settle_stay _ []
      · rw [hinline, hindicated { s with wait := .response } hf, onCommandWritten, onIndication,
          hc, hc']
        exact s.settle_onStatus_awaiting _ _ _

/-- A status that comes along is the same as one that is indicated. -/
theorem handle_indicated (status : Bytes) :
    s.run [.unanswered, .indicated status] = s.handle (.inline status) := by
  obtain ⟨r, hr, hstatus⟩ := s.handle_unanswered
  have hc : (s.handle .unanswered).crash? = none := by
    rw [hr]
    rfl
  rw [run_event hc, hr]
  show r.run [.indicated status] = _
  rw [run_singleton, hstatus]

/-- So it is in a life. -/
theorem live_indicated (status : Bytes) (rest : List Happening) :
    s.live (.event .unanswered :: .event (.indicated status) :: rest)
      = s.live (.event (.inline status) :: rest) := by
  obtain ⟨r, hr, hstatus⟩ := s.handle_unanswered
  have hc : (s.handle .unanswered).crash? = none := by
    rw [hr]
    rfl
  rw [live_event hc, hr]
  show r.live (.event (.indicated status) :: rest) = _
  rw [live, live, hstatus]

end Session

theorem Rephrased.live {hs hs' : List Happening} (h : Rephrased hs hs') (s : Session) :
    s.live hs = s.live hs' := by
  -- on the changes: what is common leads to one session, from which the rest is the same
  induction h generalizing s with
  | nil => rfl
  | same x _ ih =>
    cases x with
    | guard guard => exact ih _
    | event e => rw [Session.live, Session.live, ih]
  | indicated status _ ih => rw [Session.live_indicated, Session.live, Session.live, ih]
  | inlined status _ ih => rw [Session.live_indicated, Session.live, Session.live, ih]

/-- Whatever a session stands in, a status that comes along with the write of its command leads to
the very turn to which the write and an indication of that status lead; so no life depends on the
form in which its statuses come. -/
theorem Session.inline_as_indicated (s : Session) :
    (∀ status, s.handle (.inline status) = s.run [.unanswered, .indicated status]) ∧
      ∀ hs hs', Rephrased hs hs' → s.live hs = s.live hs' :=
  ⟨fun status => (s.handle_indicated status).symm, fun _ _ h => h.live s⟩

/-- A device that accepts the first command along with its write and the second by an indication,
and one that does it the other way round. -/
theorem Session.inline_as_indicated_swapped :
    let s := fresh {} .direct (some ⟨#[1, 2, 3], by decide, by decide⟩)
      (some { name := "node" }) {} {}
    let opening : List Happening :=
      [.event .start, .event (.connection true none), .event (.service (some .legacy) none),
        .event (.notifications true none)]
    let hs := opening ++
      [.event (.inline [0]), .event .unanswered, .event (.indicated [0])]
    let hs' := opening ++
      [.event .unanswered, .event (.indicated [0]), .event (.inline [0])]
    let r := (s.live opening).session
    r.phase = .prepareForDownload ∧
      r.handle (.inline [0]) = r.run [.unanswered, .indicated [0]] ∧
      Rephrased hs hs' ∧ s.live hs = s.live hs' := by
  intro s opening hs hs' r
  have h : Rephrased hs hs' :=
    .same _ (.same _ (.same _ (.same _ (.indicated _ (.inlined _ .nil)))))
  exact ⟨by decide, (inline_as_indicated r).1 [0], h, (inline_as_indicated s).2 hs hs' h⟩

end OtaUpgrade
