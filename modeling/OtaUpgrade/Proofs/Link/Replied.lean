import Mathlib
import OtaUpgrade.Proofs.Link.UpgradeInvariant
import OtaUpgrade.Proofs.Session.Ending

/-!
What each reply of a peripheral that refuses nothing does to the session that waits for it. Every
reply takes the upgrade on (`Pursued.replied`), and so does an answer of the mesh core or its
absence, as far as the session waits for one; what it does not wait for changes nothing.
-/
namespace OtaUpgrade

namespace Session

theorem report_of_mem_chunkReport (s : Session) :
    ∀ e ∈ s.chunkReport, ∃ r, e = Effect.report r := by
  intro e he
  unfold chunkReport at he
  split at he
  · cases he
  · exact ⟨_, List.mem_singleton.mp he⟩

section advance

variable {s s' : Session} {e : Event} {es : List Effect} {p : Phase}

theorem Advance.reports (ha : Advance s e s' es p) : ∀ e ∈ es, ∃ r, e = Effect.report r := by
  cases ha with
  | transferred => exact s.report_of_mem_chunkReport
  | rebooted => exact fun e he => ⟨_, List.mem_singleton.mp he⟩
  | _ => exact fun e he => absurd he List.not_mem_nil

/-- Whatever takes the upgrade on brings it nearer to its end. -/
theorem Advance.movesFrom_lt (h : s.Sound) (ha : Advance s e s' es p) :
    s'.movesFrom p < s.movesLeft := by
  have later {q : Phase} (hq : s.phase = q) (hp : p.remaining < q.remaining) :
      p.remaining < s.phase.remaining := by
    rw [hq]
    exact hp
  have hp : p.remaining < s.phase.remaining := by
    cases ha with
    | informed hw | uninformed hw => exact later (h.phase_of_appInfo hw) (by decide)
    | identified hw => exact later (h.phase_of_meshMetadata hw) (by decide)
    | start hp | connected hp | discovered hp | notifying hp | prepared hp | started hp
    | transferred hp | verified hp | rebooted hp | gaveUp hp => exact later hp (by decide)
  cases ha with
  | transferred => exact Session.movesFrom_lt hp rfl (Nat.le_add_right _ _)
  | gaveUp =>
    have ht : (s.noting e).cancelTimer.transfer = s.transfer := s.transfer_noting e
    exact Session.movesFrom_lt hp (by rw [ht]) (by rw [ht])
  | _ => exact Session.movesFrom_lt hp rfl (Nat.le_refl _)

end advance

/-- At the end nobody is asked anything but the device, and that only to close the link. -/
theorem asked_farewell (s : Session) :
    Trace.calls (s.parting.map .call ++ s.farewell) = s.parting ∧
      Trace.meshRequests (s.parting.map .call ++ s.farewell) = [] := by
  refine ⟨?_, s.meshRequests_ending⟩
  rw [Trace.calls_append, calls_map_call, calls_farewell, List.append_nil]

/-- A device that does not break down lets the session end. -/
theorem proceed_complete_of_sturdy {s : Session} (hf : s.finished = false) {d : Device}
    (hd : s.device = some d) (hb : d.breaksOn = []) :
    s.proceed .complete = s.closed.stay (s.parting.map .call ++ s.farewell) := by
  have hwhole : s.breaksOnParting = false := by simp [breaksOnParting, hd, hb]
  rw [proceed_complete hf, hwhole]
  rfl

/-- Closing the link takes one call at most, and that is answered once. -/
theorem length_parting_le (s : Session) {p : Peripheral} (hn : p.notices = []) :
    s.parting.length ≤ 1 ∧ (Link.answeredAll p s.parting).1.length ≤ 1 := by
  unfold parting
  split
  · obtain ⟨⟨e, he⟩, -⟩ := Peripheral.answered_link hn (c := .disconnect) nofun
    simp [Link.answeredAll, he]
  · exact ⟨Nat.zero_le _, Nat.zero_le _⟩

end Session

namespace Undertaking

/-- A turn that ends the upgrade without error. Nothing more was to come, and all that the device is
asked for is to close the link. -/
structure Ends (u : Undertaking) (n : Nat) (rest : List Event) (q : Peripheral) (t : Turn) :
    Prop where
  whole : t.crash? = none
  finished : t.session.finished = true
  error : t.session.error = none
  empty : rest = []
  upgraded : q.log.Upgraded u.mode u.image u.size
  calls : ∀ c ∈ Trace.calls t.effects, c = .disconnect
  spent : toDo q t ≤ n

/-- A turn that takes the upgrade on or ends it, with at most `n` moves left. -/
inductive Proceeds (u : Undertaking) (n : Nat) (bound : Bool) (rest : List Event) (q : Peripheral)
    (t : Turn) : Prop where
  | resumes {m : Nat} (hm : m ≤ n) (h : u.Resumes m bound rest q t)
  | ends (h : u.Ends n rest q t)

section

variable {u : Undertaking} {n : Nat} {bound : Bool} {rest : List Event} {q : Peripheral} {t : Turn}

theorem Resumes.proceeds (h : u.Resumes (n - 1) bound rest q t) : u.Proceeds n bound rest q t :=
  .resumes (Nat.sub_le _ _) h

theorem Ends.reported (h : u.Ends n rest q t) {es : List Effect}
    (hes : ∀ e ∈ es, ∃ r, e = Effect.report r) : u.Ends n rest q (t.after es) := by
  obtain ⟨hcs, htoDo⟩ := toDo_after (t := t) (q := q) (Trace.calls_of_reports hes)
    (Trace.meshRequests_of_reports hes)
  exact ⟨h.whole, h.finished, h.error, h.empty, h.upgraded, hcs ▸ h.calls, htoDo ▸ h.spent⟩

/-- Closing the link takes few moves. -/
theorem toDo_farewell (s : Session) {p : Peripheral} (hn : p.notices = []) :
    toDo p (s.closed.stay (s.parting.map .call ++ s.farewell)) ≤ s.movesFrom .complete := by
  obtain ⟨hcalls, hasks⟩ := s.asked_farewell
  have hparting := s.length_parting_le hn
  have hclosed : s.closed.movesLeft + 5 ≤ s.movesFrom .complete :=
    Session.movesLeft_arrived rfl rfl rfl
  rw [toDo_stay, hcalls, hasks, List.length_nil]
  omega

/-- On entering the end the upgrade is over. -/
theorem ends_of_complete {s : Session} {log : PeripheralLog}
    (hupgraded : log.Upgraded u.mode u.image u.size) (hs : u.Carries s)
    (hn : s.movesFrom .complete ≤ n) :
    u.Ends n [] { setup := u.setup, log } (s.proceed .complete) := by
  rw [Session.proceed_complete_of_sturdy hs.unfinished hs.device u.sturdy]
  refine ⟨rfl, rfl, hs.error, rfl, hupgraded, ?_, Nat.le_trans (toDo_farewell s rfl) hn⟩
  intro c hc
  have hc : c ∈ Trace.calls (s.parting.map .call ++ s.farewell) := hc
  rw [s.asked_farewell.1] at hc
  exact s.calls_parting c hc

end

section

variable {u : Undertaking} {s : Session} {log : PeripheralLog} (h : s.Sound)
  (hs : u.Pursued s s.phase)

include h hs

/-- An upgrade without error is not given up. -/
theorem Pursued.not_abort : s.phase ≠ .abort := by
  intro hp
  have he := h.abort hp
  rw [hs.error] at he
  cases he

theorem Pursued.carried {e : Event} {s' : Session} {es : List Effect} {p : Phase}
    (ha : Session.Advance s e s' es p) : u.Carries s' := by
  cases ha with
  | gaveUp hp => exact absurd hp (hs.not_abort h)
  | _ => exact ⟨hs.config, hs.mode, hs.image, hs.device, hs.unfinished, hs.error⟩

/-- An event that takes the upgrade on to a phase where the session waits. -/
theorem Pursued.advanced {e : Event} {s' : Session} {es : List Effect} {p : Phase}
    (ha : Session.Advance s e s' es p) (hp : p ≠ .idle)
    (hsized : .serviceDiscover ≤ p → s'.transfer.chunkSize = u.size)
    (hvariant : .readAppInfo ≤ p → s'.variant = some u.variant) {b : Bool}
    (hr : u.Pursued s' p →
      u.Resumes (s'.movesFrom p) b [] { setup := u.setup, log } (s'.proceed p)) :
    u.Resumes (s.movesLeft - 1) b [] { setup := u.setup, log } (s.handle e) := by
  have hs' : u.Pursued s' p := ⟨hs.carried h ha, fun hi => absurd hi hp, hsized, hvariant⟩
  rw [ha.handle h hs.unfinished]
  exact ((hr hs').mono (Nat.le_sub_one_of_lt (ha.movesFrom_lt h))).reported ha.reports

theorem Pursued.connected (hp : s.phase = .connect)
    (hl : log.Shows u.mode u.image s.transfer .connect) :
    u.Proceeds s.movesLeft true [] { setup := u.setup, log }
      (s.handle (.connection true none)) := by
  have hst := h.stands u.image hs.image
  rw [hp] at hst
  have hsent : s.transfer.chunksSent = 0 := congrArg Transfer.chunksSent hst
  have ha : Session.Advance s (.connection true none) _ _ _ :=
    .connected hp hs.device (by rw [hs.config]; exact u.sized) u.pos
  exact (hs.advanced h ha (by decide) (fun _ => rfl) nofun fun hs' =>
    hs'.discover (hl.resize hsent hsent)).proceeds

theorem Pursued.discovered (hp : s.phase = .serviceDiscover)
    (hl : log.Shows u.mode u.image s.transfer .serviceDiscover) :
    u.Proceeds s.movesLeft true [] { setup := u.setup, log }
      (s.handle (.service u.setup.variant none)) := by
  rw [u.willing.variant]
  have ha : Session.Advance s (.service (some u.variant) none) _ _ _ := .discovered hp
  have hsized := hs.sized (by rw [hp]; decide)
  exact (hs.advanced h ha (by decide) (fun _ => hsized) (fun _ => rfl) fun hs' =>
    hs'.read hl).proceeds

/-- Whatever is read, the upgrade goes on, if need be by asking the mesh core. -/
theorem Pursued.informed (hw : s.wait = .appInfo)
    (hl : log.Shows u.mode u.image s.transfer .readAppInfo) (value : Option Bytes)
    (error : Option LinkError) :
    u.Proceeds s.movesLeft true [] { setup := u.setup, log }
      (s.handle (.value .appInfo value error)) := by
  have hp := h.phase_of_appInfo hw
  have hsized := hs.sized (by rw [hp]; decide)
  have hvariant := hs.variant (by rw [hp]; decide)
  cases hv : value.bind AppInfo.decode? with
  | some info =>
    have ha : Session.Advance s (.value .appInfo value error) _ _ _ := .informed hw hv
    exact (hs.advanced h ha (by decide) (fun _ => hsized) (fun _ => hvariant) fun hs' =>
      hs'.notify hl).proceeds
  | none =>
    cases hask : s.askable? with
    | none =>
      have ha : Session.Advance s (.value .appInfo value error) _ _ _ := .uninformed hw hv hask
      exact (hs.advanced h ha (by decide) (fun _ => hsized) (fun _ => hvariant) fun hs' =>
        hs'.notify hl).proceeds
    | some address =>
      -- in the same phase, but the next step of it
      have hless : 16 * s.phase.remaining + 0 + 8 * (s.transfer.imageSize - s.transfer.offset) + 2
          ≤ s.movesLeft := by
        rw [Session.movesLeft, hw, if_neg nofun]
        omega
      rw [h.handle_asks hs.unfinished hw hv hask]
      have hi : s.phase ≠ .idle := by rw [hp]; decide
      have hr : u.Pursued { s.cancelTimer.armTimer with
          guard := s.guard.begin .componentMetadata, wait := .meshMetadata } s.phase :=
        ⟨⟨hs.config, hs.mode, hs.image, hs.device, hs.unfinished, hs.error⟩, fun hn => absurd hn hi,
          hs.sized, hs.variant⟩
      refine .resumes (Nat.le_refl _) (hr.stay hi ⟨?_, log, rfl, ?_⟩ rfl rfl hless)
      · show [] = u.setup.replies s.phase .meshMetadata
        rw [hp]
        rfl
      · show log.Shows u.mode u.image s.transfer s.phase
        rw [hp]
        exact hl

theorem Pursued.notifying (hp : s.phase = .enableNotification)
    (hl : log.Shows u.mode u.image s.transfer .enableNotification) :
    u.Proceeds s.movesLeft true [] { setup := u.setup, log }
      (s.handle (.notifications true none)) := by
  have hst := h.stands u.image hs.image
  rw [hp] at hst
  obtain ⟨size, -, ht⟩ := hst
  have ha : Session.Advance s (.notifications true none) _ _ _ := .notifying hp
  have hsized := hs.sized (by rw [hp]; decide)
  have hvariant := hs.variant (by rw [hp]; decide)
  exact (hs.advanced h ha (by decide) (fun _ => hsized) (fun _ => hvariant) fun hs' =>
    hs'.prepare hl (congrArg Transfer.chunksSent ht)).proceeds

/-- Where the command's write is completed first, the answer is still to come. -/
theorem Pursued.written (hc : (Session.commandOf? s.phase).isSome = true) {rest : List Event}
    (hrest : rest = u.setup.replies s.phase .response)
    (hl : log.Shows u.mode u.image s.transfer s.phase) :
    u.Proceeds s.movesLeft true rest { setup := u.setup, log }
      (s.handle (.written .controlPoint (.ok none))) := by
  have hw : s.wait ≠ .meshMetadata := by
    intro hw
    rw [h.phase_of_meshMetadata hw] at hc
    cases hc
  have hle : ({ s with wait := .response } : Session).movesLeft ≤ s.movesLeft := by
    rw [Session.movesLeft, Session.movesLeft, if_neg hw, if_neg nofun]
  have hi : s.phase ≠ .idle := by
    intro hi
    rw [hi] at hc
    cases hc
  have hr : u.Pursued { s with wait := .response } s.phase := hs.withGuard hi
  rw [h.handle_written hs.unfinished hc]
  exact .resumes (Nat.le_refl _) (hr.stay hi ⟨hrest, log, rfl, hl⟩ rfl rfl hle)

/-- An acknowledged chunk is followed by the next one, or by the command to verify. -/
theorem Pursued.acknowledged (hp : s.phase = .dataTransfer)
    (hl : log.Shows u.mode u.image s.transfer .dataTransfer) :
    u.Proceeds s.movesLeft true [] { setup := u.setup, log }
      (s.handle (.written .data (.ok none))) := by
  have hsized := hs.sized (by rw [hp]; decide)
  have hvariant := hs.variant (by rw [hp]; decide)
  obtain ⟨size, count, pos, lt, ht⟩ := h.flying hp hs.image
  obtain rfl := hs.size_eq (by rw [hp]; decide) ht
  by_cases hlt : (count + 1) * u.size < u.image.size
  · have hw : s.wait = .chunkAck := h.chunkAck_iff.mpr hp
    have hless : (s.acknowledged.armTimer.sending u.image u.size (count + 1)).movesLeft + 5
        ≤ s.movesLeft := by
      have hoffset := u.image.covered_of_lt hlt
      have hbefore := u.image.covered_of_lt lt
      rw [Session.movesLeft, Session.movesLeft, hw, if_neg nofun, if_neg nofun, ht]
      show 16 * s.phase.remaining + 8 + 8 * (u.image.size - u.image.covered u.size (count + 1)) + 5
        ≤ 16 * s.phase.remaining + 8 + 8 * (u.image.size - u.image.covered u.size count)
      rw [Nat.succ_mul] at hlt hoffset
      omega
    have hr : u.Pursued (s.acknowledged.armTimer.sending u.image u.size (count + 1)) s.phase :=
      ⟨⟨hs.config, hs.mode, hs.image, hs.device, hs.unfinished, hs.error⟩, hs.free, fun _ => rfl,
        hs.variant⟩
    have hreplies : u.setup.Replies log (.write .data (u.image.chunk u.size (count + 1)))
        (u.setup.replies s.phase .chunkAck)
        (·.Shows u.mode u.image (.after u.image u.size (count + 1) (count + 2)) s.phase) := by
      rw [hp]
      rw [ht] at hl
      exact u.willing.data hl (by decide) (by decide) rfl rfl rfl rfl
    have hi : s.phase ≠ .idle := by rw [hp]; decide
    rw [h.handle_next hs.unfinished hp hs.image hs.device ht hlt]
    exact .resumes (Nat.le_refl _) ((hr.ask hi hreplies hless).reported s.report_of_mem_chunkReport)
  · have hall : u.image.covered u.size (count + 1) = u.image.size := by
      unfold Image.covered
      omega
    have hbooks := Session.transfer_acknowledged lt ht
    have ha : Session.Advance s (.written .data (.ok none)) _ _ _ :=
      .transferred hp ((Session.isDone_acknowledged lt ht).mpr (Nat.le_of_not_lt hlt))
    refine Resumes.proceeds (hs.advanced h ha (by decide) (fun _ => hsized) (fun _ => hvariant)
      fun hs' => hs'.verify (hl.congr rfl rfl) ?_ ?_)
    · rw [hbooks]
      exact hall
    · rw [hbooks]
      simp [Transfer.after, hall]

/-- The end is reported, and the link is closed if it is still up. -/
theorem Pursued.ended (hp : s.phase = .verify) (hl : log.Shows u.mode u.image s.transfer .verify)
    {e : Event} {s' : Session} {es : List Effect} (ha : Session.Advance s e s' es .complete) :
    u.Proceeds s.movesLeft true [] { setup := u.setup, log } (s.handle e) := by
  have hst := h.stands u.image hs.image
  rw [hp] at hst
  obtain ⟨size, count, pos, lt, hall, hbooks⟩ := hst
  obtain rfl := hs.size_eq (by rw [hp]; decide) hbooks
  have hends := ends_of_complete (hl.upgraded pos lt hall hbooks) (hs.carried h ha)
    (Nat.le_of_lt (ha.movesFrom_lt h))
  rw [ha.handle h hs.unfinished]
  exact .ends (hends.reported ha.reports)

/-- A command that is answered by success takes the upgrade to the next phase. -/
theorem Pursued.granted (hc : (Session.commandOf? s.phase).isSome = true)
    (hl : log.Shows u.mode u.image s.transfer s.phase) {e : Event} (hg : e.grants = true) :
    u.Proceeds s.movesLeft true [] { setup := u.setup, log } (s.handle e) := by
  have hst := h.stands u.image hs.image
  cases hp : s.phase with
  | prepareForDownload =>
    rw [hp] at hl hst
    have hsized := hs.sized (by rw [hp]; decide)
    have hvariant := hs.variant (by rw [hp]; decide)
    have ha : Session.Advance s e _ _ _ := .prepared hp hg
    exact (hs.advanced h ha (by decide) (fun _ => hsized) (fun _ => hvariant) fun hs' =>
      hs'.start hl hst.books.imageSize_eq).proceeds
  | startDownload =>
    rw [hp] at hl hst
    have hsized := hs.sized (by rw [hp]; decide)
    obtain ⟨size, pos, ht⟩ := hst
    obtain rfl := hs.size_eq (by rw [hp]; decide) ht
    have hvariant := hs.variant (by rw [hp]; decide)
    have ha : Session.Advance s e _ _ _ := .started hp hg
    exact (hs.advanced h ha (by decide) (fun _ => hsized) (fun _ => hvariant) fun hs' =>
      hs'.transfer hl ht).proceeds
  | verify =>
    rw [hp] at hl
    exact hs.ended h hp hl (.verified hp hg)
  | abort => exact absurd hp (hs.not_abort h)
  | idle | connect | serviceDiscover | readAppInfo | enableNotification | dataTransfer | complete =>
    rw [hp] at hc
    cases hc

/-- What comes behind the write of a command grants it, or tells of the reboot. -/
theorem Pursued.answered (ht : s.Timed) (hc : (Session.commandOf? s.phase).isSome = true)
    (hw : s.wait = .response) (hl : log.Shows u.mode u.image s.transfer s.phase) :
    u.Proceeds s.movesLeft true [] { setup := u.setup, log }
      (s.handle (u.setup.sequel s.phase)) := by
  unfold PeripheralSetup.sequel
  split
  · next hreboots =>
    have hp := hreboots.1
    rw [hp] at hl
    obtain ⟨x, hx, -⟩ := ht.armed (by rw [hp]; rfl)
    exact hs.ended h hp hl (.rebooted hp hw (by rw [hx]; rfl))
  · exact hs.granted h hc hl rfl

/-- The command of a phase is answered at once, or its write is completed first. -/
theorem Pursued.commanded (hc : (Session.commandOf? s.phase).isSome = true) {e : Event}
    {rest : List Event} (hq : e :: rest = u.setup.commandReplies s.phase)
    (hl : log.Shows u.mode u.image s.transfer s.phase) :
    u.Proceeds s.movesLeft true rest { setup := u.setup, log } (s.handle e) := by
  unfold PeripheralSetup.commandReplies at hq
  split at hq
  · obtain ⟨rfl, rfl⟩ := List.cons.inj hq
    refine hs.written h hc ?_ hl
    cases hp : s.phase <;> rw [hp] at hc <;> first | rfl | cases hc
  · obtain ⟨rfl, rfl⟩ := List.cons.inj hq
    exact hs.granted h hc hl rfl

/-- Each reply in turn takes the upgrade on. -/
theorem Pursued.replied (ht : s.Timed) {e : Event} {rest : List Event} {q : Peripheral}
    (ha : u.Abreast s (e :: rest) q) : u.Proceeds s.movesLeft true rest q (s.handle e) := by
  obtain ⟨hq, log, rfl, hl⟩ := ha
  have hw := h.awaits
  have hcommand {p : Phase} (hp : s.phase = p) (hc : (Session.commandOf? p).isSome = true)
      (hwrite : u.setup.replies p .write = u.setup.commandReplies p)
      (hresponse : u.setup.replies p .response = [u.setup.sequel p])
      (hawaits : s.wait = .write ∨ s.wait = .response) :
      u.Proceeds s.movesLeft true rest { setup := u.setup, log } (s.handle e) := by
    subst hp
    rcases hawaits with hwait | hwait
    · rw [hwait, hwrite] at hq
      exact hs.commanded h hc hq hl
    · rw [hwait, hresponse] at hq
      obtain ⟨rfl, rfl⟩ := List.cons.inj hq
      exact hs.answered h ht hc hwait hl
  cases hp : s.phase with
  | idle =>
    have hwait : s.wait = .nothing := by
      rw [hp] at hw
      cases hwait : s.wait <;> rw [hwait] at hw <;> first | rfl | cases hw
    rw [hp, hwait] at hq
    cases hq
  | connect =>
    rw [hp] at hq hl
    obtain ⟨rfl, rfl⟩ := List.cons.inj hq
    exact hs.connected h hp hl
  | serviceDiscover =>
    rw [hp] at hq hl
    obtain ⟨rfl, rfl⟩ := List.cons.inj hq
    exact hs.discovered h hp hl
  | readAppInfo =>
    have hwait : s.wait = .appInfo ∨ s.wait = .meshMetadata := by
      rw [hp] at hw
      cases hwait : s.wait <;> rw [hwait] at hw <;>
        first | exact .inl rfl | exact .inr rfl | cases hw
    rw [hp] at hq hl
    rcases hwait with hwait | hwait
    · rw [hwait] at hq
      obtain ⟨rfl, rfl⟩ := List.cons.inj hq
      unfold PeripheralSetup.appInfoReply
      split
      · exact hs.informed h hwait hl _ _
      · exact hs.informed h hwait hl _ _
    · rw [hwait] at hq
      cases hq
  | enableNotification =>
    rw [hp] at hq hl
    obtain ⟨rfl, rfl⟩ := List.cons.inj hq
    exact hs.notifying h hp hl
  | prepareForDownload | startDownload | verify =>
    rw [hp] at hw
    refine hcommand hp rfl rfl rfl ?_
    cases hwait : s.wait <;> rw [hwait] at hw <;> first | exact .inl rfl | exact .inr rfl | cases hw
  | dataTransfer =>
    rw [hp] at hq hl
    obtain ⟨rfl, rfl⟩ := List.cons.inj hq
    exact hs.acknowledged h hp hl
  | abort => exact absurd hp (hs.not_abort h)
  | complete => exact absurd hp (h.not_complete hs.unfinished)

/-! ## What the device does not tell -/

theorem Pursued.started (hp : s.phase = .idle) (hl : log.Shows u.mode u.image s.transfer .idle)
    (b : Bool) : u.Resumes (s.movesLeft - 1) b [] { setup := u.setup, log } (s.handle .start) := by
  have ha : Session.Advance s .start _ _ _ := .start hp
  exact hs.advanced h ha (by decide) (fun hn => absurd hn (by decide))
    (fun hn => absurd hn (by decide)) fun hs' => hs'.connect (hs.free hp) hl

/-- What the mesh core tells, or fails to tell, is not needed for the upgrade to go on. -/
theorem Pursued.identified (hg : s.guard.has .componentMetadata = true)
    (hw : s.wait = .meshMetadata) (hl : log.Shows u.mode u.image s.transfer .readAppInfo)
    (known : Option ComponentMetadata) :
    u.Resumes (s.movesLeft - 1) true [] { setup := u.setup, log }
      (s.handle (.meshMetadata known)) := by
  have hp := h.phase_of_meshMetadata hw
  have ha : Session.Advance s (.meshMetadata known) _ _ _ := .identified hw hg
  have hsized := hs.sized (by rw [hp]; decide)
  have hvariant := hs.variant (by rw [hp]; decide)
  exact hs.advanced h ha (by decide) (fun _ => hsized) (fun _ => hvariant) fun hs' => hs'.notify hl

/-- As long as the upgrade is under way something is to come, unless the mesh core is waited for. -/
theorem Pursued.waits (hi : s.phase ≠ .idle) (hq : u.setup.replies s.phase s.wait = []) :
    s.wait = .meshMetadata := by
  have hu := Phase.underWay_of_ne hi (h.not_complete hs.unfinished)
  by_contra hw
  exact u.setup.replies_ne_nil h.awaits hu (hs.not_abort h) hw hq

omit hs in
/-- Before the upgrade begins nothing is to come. -/
theorem replies_of_idle (hp : s.phase = .idle) : u.setup.replies s.phase s.wait = [] := by
  have hw := h.awaits
  rw [hp] at hw ⊢
  cases hwait : s.wait <;> rw [hwait] at hw <;> first | rfl | cases hw

/-- The request to begin, and the answers of the mesh core to an upgrade that was begun, leave what
is to come from the device as it is. -/
theorem Pursued.told (ht : s.Timed) {e : Event}
    (he : e = .start ∨ s.phase ≠ .idle ∧ ∃ known, e = .meshMetadata known)
    {queue : List Event} {q : Peripheral} (ha : u.Abreast s queue q) {b : Bool}
    (hb : s.phase ≠ .idle → b = true) : u.Resumes s.movesLeft b queue q (s.handle e) := by
  obtain ⟨hq, log, rfl, hl⟩ := ha
  rcases he with rfl | ⟨hi, known, rfl⟩
  · by_cases hp : s.phase = .idle
    · obtain rfl : queue = [] := hq.trans (replies_of_idle h hp)
      rw [hp] at hl
      exact (hs.started h hp hl b).mono (Nat.sub_le _ _)
    · rw [Session.handle_start_again hs.unfinished hp]
      exact hs.stay hp ⟨hq, log, rfl, hl⟩ rfl (hb hp) (Nat.le_refl _)
  · obtain rfl : b = true := hb hi
    by_cases hw : s.wait = .meshMetadata
    · have hp := h.phase_of_meshMetadata hw
      obtain rfl : queue = [] := by rw [hq, hp, hw]; rfl
      rw [hp] at hl
      exact (hs.identified h (ht.asking hw) hw hl known).mono (Nat.sub_le _ _)
    · have hr : u.Pursued { s with guard := s.guard.finish .componentMetadata } s.phase :=
        hs.withGuard hi
      rw [Session.handle_meshMetadata_late hs.unfinished known hw]
      exact hr.stay hi ⟨hq, log, rfl, hl⟩ rfl rfl (Nat.le_refl _)

/-- When nothing is to come any more, the timeout of the mesh core's answer takes its place. -/
theorem Pursued.expired (ht : s.Timed) {x : Timeout} (hx : s.timer.armed = some x) {q : Peripheral}
    (ha : u.Abreast s [] q) : u.Resumes (s.movesLeft - 1) true [] q (s.handle (.timeout x.id)) := by
  obtain ⟨hq, log, rfl, hl⟩ := ha
  have hi : s.phase ≠ .idle := by
    intro hp
    rw [(h.idle hp).2.2] at hx
    cases hx
  have hw := hs.waits h hi hq.symm
  have hp := h.phase_of_meshMetadata hw
  have hdue : s.timer.due? x.id = some x := by simp [Timer.due?, hx]
  have hfails : s.failureEvent? (.timeout x.ms) = some (.meshMetadata none) := by
    unfold Session.failureEvent?
    rw [hp]
    exact if_pos hw
  have hs' : u.Pursued { s with timer := s.timer.fire } s.phase :=
    ⟨⟨hs.config, hs.mode, hs.image, hs.device, hs.unfinished, hs.error⟩, hs.free, hs.sized,
      hs.variant⟩
  rw [hp] at hl
  rw [Session.handle_timeout hs.unfinished hdue hfails (by rintro _ ⟨⟩)]
  exact (hs'.identified (h.withTimer hi s.timer.fire) (ht.asking hw) hw hl none).reported (by simp)

end

end Undertaking
end OtaUpgrade
