import Mathlib
import OtaUpgrade.Proofs.Session.Chronicle

/-!
A session's state as the account of its chronicle. The data writes of the chronicle are the chunks
that the books count as sent, the completions handled during the transfer those that they count as
acknowledged; as long as no error is recorded the commands written are those of the phases passed;
and every command and chunk has the answer before it that allows it.
-/
namespace OtaUpgrade

/-- How many commands an upgrade without error has written by this phase. -/
def Phase.commandsIssued : Phase → Nat
  | .idle | .connect | .serviceDiscover | .readAppInfo | .enableNotification => 0
  | .prepareForDownload => 1
  | .startDownload | .dataTransfer => 2
  | .verify | .abort | .complete => 3

/-- The commands of an upgrade without error. -/
def Mode.script (mode : Mode) (image : Image) : List Command :=
  [mode.prepareCommand, .start (UInt32.ofNat image.size), .verify image.crc]

namespace Episode

/-- The device was asked for this in the episode. -/
def Asks (x : Episode) (c : DeviceCall) : Prop := c ∈ Trace.calls x.effects

/-- An answer of success came in this phase. -/
def Grants (x : Episode) (p : Phase) : Prop := x.phase = p ∧ x.event.grants = true

/-- A chunk was acknowledged. -/
def acknowledges (x : Episode) : Bool := x.phase == .dataTransfer && x.event.acknowledges

/-- The command to verify was written, without an answer coming along. -/
def Silent (x : Episode) : Prop :=
  x.phase = .verify ∧ x.event = .written .controlPoint (.ok none)

/-- The link went down while the answer to the command to verify was waited for. -/
def Drops (x : Episode) : Prop :=
  x.phase = .verify ∧ x.wait = .response ∧ ∃ error, x.event = .connection false error

/-- How many chunks were acknowledged in these episodes. -/
def acknowledgements (c : List Episode) : Nat := c.countP acknowledges

theorem acknowledgements_append (a b : List Episode) :
    acknowledgements (a ++ b) = acknowledgements a + acknowledgements b :=
  List.countP_append

/-- Wherever something happens, the episodes up to there give evidence of what allows it. -/
def Precedes (mark : Episode → Prop) (evidence : List Episode → Prop) (c : List Episode) : Prop :=
  ∀ before x after, c = before ++ x :: after → mark x → evidence (before ++ [x])

theorem Precedes.nil (mark : Episode → Prop) (evidence : List Episode → Prop) :
    Precedes mark evidence [] := by
  intro before x after h
  simp at h

theorem Precedes.of_not {mark : Episode → Prop} {evidence : List Episode → Prop}
    {c : List Episode} (h : ∀ x ∈ c, ¬ mark x) : Precedes mark evidence c := by
  intro before x after heq hx
  exact absurd hx (h x (by simp [heq]))

theorem Precedes.append {mark : Episode → Prop} {evidence : List Episode → Prop}
    {c : List Episode} {x : Episode} (h : Precedes mark evidence c)
    (hx : mark x → evidence (c ++ [x])) : Precedes mark evidence (c ++ [x]) := by
  intro before y after heq hy
  -- the mark stands in the new episode, or in one that was there before
  rcases List.eq_nil_or_concat after with rfl | ⟨after, z, rfl⟩
  · obtain ⟨rfl, hxy⟩ := List.append_inj' heq rfl
    obtain rfl : x = y := by simpa using hxy
    exact hx hy
  · have heq : c ++ [x] = (before ++ y :: after) ++ [z] := by simpa using heq
    exact h before y after (List.append_inj' heq rfl).1 hy

/-- An answer of success came in this phase. -/
def Granted (p : Phase) (c : List Episode) : Prop := ∃ x ∈ c, x.Grants p

/-- The peripheral accepted the image: it said so, or fell silent after the command to verify and
then dropped the link. -/
def Confirmed (c : List Episode) : Prop :=
  Granted .verify c ∨
    ∃ a x b y d, c = a ++ x :: (b ++ y :: d) ∧ x.Silent ∧ (∀ z ∈ b, z.phase = .verify) ∧ y.Drops

/-- The command to verify was written without an answer, and nothing has ended the verification. -/
def Unanswered (c : List Episode) : Prop :=
  ∃ a x b, c = a ++ x :: b ∧ x.Silent ∧ ∀ z ∈ b, z.phase = .verify

theorem Granted.append {p : Phase} {c : List Episode} (h : Granted p c) (x : Episode) :
    Granted p (c ++ [x]) := by
  obtain ⟨y, hy, hg⟩ := h
  exact ⟨y, List.mem_append_left _ hy, hg⟩

theorem Confirmed.append {c : List Episode} (h : Confirmed c) (x : Episode) :
    Confirmed (c ++ [x]) := by
  rcases h with h | ⟨a, y, b, z, d, rfl, hy, hb, hz⟩
  · exact .inl (h.append x)
  · exact .inr ⟨a, y, b, z, d ++ [x], by simp, hy, hb, hz⟩

theorem Unanswered.append {c : List Episode} {x : Episode} (h : Unanswered c)
    (hx : x.phase = .verify) : Unanswered (c ++ [x]) := by
  obtain ⟨a, y, b, rfl, hy, hb⟩ := h
  refine ⟨a, y, b ++ [x], by simp, hy, ?_⟩
  intro z hz
  rcases List.mem_append.mp hz with hz | hz
  · exact hb z hz
  · rw [List.mem_singleton.mp hz]
    exact hx

theorem Unanswered.drop {c : List Episode} {x : Episode} (h : Unanswered c) (hx : x.Drops) :
    Confirmed (c ++ [x]) := by
  obtain ⟨a, y, b, rfl, hy, hb⟩ := h
  exact .inr ⟨a, y, b, x, [], by simp, hy, hb, hx⟩

end Episode

namespace Session

open Episode

/-- What a chronicle tells of the session it leads to. -/
structure Accounts (c : List Episode) (s : Session) : Prop where
  sound : s.Sound
  data : ∀ image, s.image = some image →
    Trace.writes .data (deeds c) = image.chunks s.transfer.chunkSize s.transfer.chunksSent
  acked : ∀ image, s.image = some image → acknowledgements c = s.transfer.acked
  commands : ∀ image, s.image = some image → s.error = none →
    Trace.writes .controlPoint (deeds c)
      = ((s.mode.script image).take s.phase.commandsIssued).map Command.encode
  started : ∀ image, s.image = some image →
    Precedes (Asks · (.command (.start (UInt32.ofNat image.size)))) (Granted .prepareForDownload) c
  admitted : s.phase = .dataTransfer → Granted .startDownload c
  sent : Precedes (∃ bytes, Asks · (.write .data bytes)) (Granted .startDownload) c
  verified : ∀ image, s.image = some image →
    Precedes (Asks · (.command (.verify image.crc)))
      (fun b => acknowledgements b
        = (image.size + s.transfer.chunkSize - 1) / s.transfer.chunkSize) c
  /-- As long as the chunk size is unknown nothing was verified. -/
  unsized : s.transfer.chunkSize = 0 → ∀ x ∈ c, ∀ crc, ¬ x.Asks (.command (.verify crc))
  unanswered : s.phase = .verify → s.wait = .response → Unanswered c
  ended : s.phase = .complete → s.error = none →
    Confirmed c ∧ ∃ image, s.image = some image ∧ s.transfer.Stands image .verify

theorem Accounts.fresh (config : Config) (mode : Mode) (image : Option Image)
    (device : Option Device) (collaborators : Collaborators) (guard : Guard) :
    Accounts [] (fresh config mode image device collaborators guard) where
  sound := .fresh ..
  data _ _ := rfl
  acked _ _ := rfl
  commands _ _ _ := rfl
  started _ _ := .nil _ _
  admitted := nofun
  sent := .nil _ _
  verified _ _ := .nil _ _
  unsized _ _ hx := absurd hx List.not_mem_nil
  unanswered := nofun
  ended := nofun

/-- Nothing is told of the guard. -/
theorem Accounts.withGuard {c : List Episode} {s : Session} (h : Accounts c s) (guard : Guard) :
    Accounts c { s with guard } :=
  ⟨h.sound.withGuard guard, h.data, h.acked, h.commands, h.started, h.admitted, h.sent,
    h.verified, h.unsized, h.unanswered, h.ended⟩

/-! ## One more episode -/

theorem asks_episode {s : Session} {e : Event} {c : DeviceCall} :
    (s.episode e).Asks c ↔ c ∈ Trace.calls (Trace.dealings (s.handle e).effects) := by
  rw [Trace.calls_dealings]
  rfl

theorem writes_episode (channel : Characteristic) (c : List Episode) (s : Session) (e : Event) :
    Trace.writes channel (deeds (c ++ [s.episode e]))
      = Trace.writes channel (deeds c)
        ++ Trace.writes channel (Trace.dealings (s.handle e).effects) := by
  rw [deeds_append, Trace.writes_append, deeds_singleton, Trace.writes_dealings]
  rfl

/-- Giving up and closing the link write no data. -/
theorem writes_data_of_fails {ds : List Effect}
    (h : ∀ c ∈ Trace.calls ds, c = .disconnect ∨ c = .command .abort) :
    Trace.writes .data ds = [] := by
  refine List.filterMap_eq_nil_iff.mpr fun c hc => ?_
  rcases h c hc with rfl | rfl <;> rfl

theorem writes_of_finishes {ds : List Effect} (h : ∀ c ∈ Trace.calls ds, c = .disconnect)
    (channel : Characteristic) : Trace.writes channel ds = [] := by
  refine List.filterMap_eq_nil_iff.mpr fun c hc => ?_
  rw [h c hc]
  rfl

/-- A failure gives the upgrade up or ends it, unless the link is to be closed before a download. -/
theorem phase_of_fails {s s' : Session}
    (h : s'.phase = .abort ∨ s'.phase = .complete ∨
      s.phase.isBeforeDownload = true ∧ s'.phase = s.phase) :
    s'.phase = .abort ∨ s'.phase = .complete ∨ s'.phase.isBeforeDownload = true := by
  rcases h with hp | hp | ⟨hb, hp⟩
  · exact .inl hp
  · exact .inr (.inl hp)
  · exact .inr (.inr (by rw [hp]; exact hb))

/-- An acknowledgement counts once. -/
theorem acknowledgements_episode {s : Session} {e : Event} (hs : s.phase = .dataTransfer)
    (hev : e.acknowledges = true) : acknowledgements [s.episode e] = 1 := by
  simp [acknowledgements, Episode.acknowledges, episode, hs, hev]

theorem acknowledgements_episode_of_not {s : Session} {e : Event}
    (hn : s.phase = .dataTransfer → e.acknowledges = false) :
    acknowledgements [s.episode e] = 0 := by
  refine List.countP_eq_zero.mpr fun x hx => ?_
  rw [List.mem_singleton.mp hx]
  simpa [Episode.acknowledges, episode] using hn

section asks

variable {s : Session} (h : s.Sound) {e : Event}

include h

theorem Sound.asked {c : DeviceCall} (hx : (s.episode e).Asks c) : Asked s e c :=
  (h.deed e).asked (asks_episode.mp hx)

theorem Sound.phase_of_asks_start {n : UInt32}
    (hx : (s.episode e).Asks (.command (.start n))) :
    s.phase = .prepareForDownload ∧ e.grants = true := by
  generalize hc : DeviceCall.command (.start n) = c at hx
  cases h.asked hx with
  | link hn => exact absurd hc.symm (hn _ _)
  | prepare hs hev =>
    have ho := DeviceCall.opcode_of_command_eq hc
    cases hm : s.mode <;> rw [hm] at ho <;> cases ho
  | start hs hg => exact ⟨hs, hg⟩
  | first => exact absurd hc (DeviceCall.command_ne_data _ _)
  | next => exact absurd hc (DeviceCall.command_ne_data _ _)
  | verify => cases DeviceCall.opcode_of_command_eq hc
  | abort => cases DeviceCall.opcode_of_command_eq hc

theorem Sound.phase_of_asks_data {bytes : Bytes} (hx : (s.episode e).Asks (.write .data bytes)) :
    s.phase = .startDownload ∧ e.grants = true ∨ s.phase = .dataTransfer := by
  generalize hc : DeviceCall.write .data bytes = c at hx
  cases h.asked hx with
  | link hn => exact absurd hc.symm (hn _ _)
  | first hs hg => exact .inl ⟨hs, hg⟩
  | next hs => exact .inr hs
  | _ => exact absurd hc.symm (DeviceCall.command_ne_data _ _)

theorem Sound.verifies_of_asks {crc : UInt32}
    (hx : (s.episode e).Asks (.command (.verify crc))) :
    s.phase = .dataTransfer ∧ e.acknowledges = true ∧ ∃ image size count,
      s.image = some image ∧ 0 < size ∧ count * size < image.size ∧
        image.covered size (count + 1) = image.size ∧
        s.transfer = .after image size count (count + 1) := by
  generalize hc : DeviceCall.command (.verify crc) = c at hx
  cases h.asked hx with
  | link hn => exact absurd hc.symm (hn _ _)
  | prepare hs hev =>
    have ho := DeviceCall.opcode_of_command_eq hc
    cases hm : s.mode <;> rw [hm] at ho <;> cases ho
  | start => cases DeviceCall.opcode_of_command_eq hc
  | first => exact absurd hc (DeviceCall.command_ne_data _ _)
  | next => exact absurd hc (DeviceCall.command_ne_data _ _)
  | verify hs hev hi pos lt hall hst => exact ⟨hs, hev, _, _, _, hi, pos, lt, hall, hst⟩
  | abort => cases DeviceCall.opcode_of_command_eq hc

theorem Sound.sized_of_asks {crc : UInt32} (hx : (s.episode e).Asks (.command (.verify crc))) :
    s.transfer.chunkSize ≠ 0 := by
  obtain ⟨-, -, image, size, count, -, pos, -, -, hst⟩ := h.verifies_of_asks hx
  rw [hst, Transfer.chunkSize_after]
  exact Nat.ne_of_gt pos

/-- The chunk size is settled once. -/
theorem Sound.chunkSize_handle :
    (s.handle e).session.transfer.chunkSize = s.transfer.chunkSize ∨
      s.transfer.chunkSize = 0 := by
  cases h.deed e with
  | discovers hs =>
    obtain ⟨image, hi⟩ := h.imaged (by rw [hs]; rfl)
    have hst := h.stands image hi
    rw [hs] at hst
    exact .inr (congrArg Transfer.chunkSize hst)
  | stays hp ht | connects hs hp ht | reads hs hev hp ht | notifies hs hp ht
  | prepares hs hev hp ht | starts hs hg hi hp ht | finishes hs hev hp ht | fails hp he ht =>
    exact .inl (congrArg Transfer.chunkSize ht)
  | transfers hs hg hi pos hst hp ht | next hs hev hi pos lt hst hp ht
  | verifies hs hev hi pos lt hall hst hp hw ht =>
    rw [ht, hst]
    exact .inl rfl

end asks

section episode

variable {c : List Episode} {s : Session} (h : Accounts c s) (e : Event)

include h

theorem Accounts.data_episode {image : Image} (hi : s.image = some image) :
    Trace.writes .data (deeds (c ++ [s.episode e]))
      = image.chunks (s.handle e).session.transfer.chunkSize
          (s.handle e).session.transfer.chunksSent := by
  rw [writes_episode, h.data image hi]
  have hst := h.sound.stands image hi
  -- only `transfers` and `next` write data, each the chunk after those written
  cases h.sound.deed e with
  | stays hp ht he hd | prepares hs hev hp ht he hd | starts hs hg hi hp ht he hd
  | notifies hs hp ht he hd =>
    rw [hd, ht]
    exact List.append_nil _
  | connects hs hp ht he hd | reads hs hev hp ht he hd =>
    rw [ht]
    rcases hd with hd | hd <;> rw [hd] <;> exact List.append_nil _
  | discovers hs hev hp ht he hd =>
    rw [hs] at hst
    have hst : s.transfer = .after image 0 0 0 := hst
    rw [hd, ht, hst]
    rfl
  | @transfers image' size hs hg hi' pos hst' hp ht he hd =>
    obtain rfl : image = image' := Option.some.inj (hi.symm.trans hi')
    rw [hd, ht, hst', Transfer.chunksSent_after, Transfer.chunksSent_after,
      Transfer.chunkSize_after, Transfer.chunkSize_after, Image.chunks_succ]
    rfl
  | @next image' size count hs hev hi' pos lt hst' hp ht he hd =>
    obtain rfl : image = image' := Option.some.inj (hi.symm.trans hi')
    rw [hd, ht, hst', Transfer.chunksSent_after, Transfer.chunksSent_after,
      Transfer.chunkSize_after, Transfer.chunkSize_after, Image.chunks_succ image size (count + 1)]
    rfl
  | @verifies image' size count hs hev hi' pos lt hall hst' hp hw ht he hd =>
    obtain rfl : image = image' := Option.some.inj (hi.symm.trans hi')
    rw [hd, ht, hst']
    exact List.append_nil _
  | finishes hs hev hp ht he hc =>
    rw [ht, writes_of_finishes hc, List.append_nil]
  | fails hp he ht ha hc =>
    rw [ht, writes_data_of_fails hc, List.append_nil]

theorem Accounts.started_episode {image : Image} (hi : s.image = some image) :
    Precedes (Asks · (.command (.start (UInt32.ofNat image.size)))) (Granted .prepareForDownload)
      (c ++ [s.episode e]) := by
  refine (h.started image hi).append fun hx => ?_
  exact ⟨s.episode e, by simp, h.sound.phase_of_asks_start hx⟩

theorem Accounts.sent_episode :
    Precedes (∃ bytes, Asks · (.write .data bytes)) (Granted .startDownload)
      (c ++ [s.episode e]) := by
  refine h.sent.append ?_
  rintro ⟨bytes, hx⟩
  rcases h.sound.phase_of_asks_data hx with hg | hp
  · exact ⟨s.episode e, by simp, hg⟩
  · exact (h.admitted hp).append _

theorem Accounts.admitted_episode (hp : (s.handle e).session.phase = .dataTransfer) :
    Granted .startDownload (c ++ [s.episode e]) := by
  cases h.sound.deed e with
  | stays hp' => exact (h.admitted (hp' ▸ hp)).append _
  | transfers hs hg => exact ⟨s.episode e, by simp, hs, hg⟩
  | next hs => exact (h.admitted hs).append _
  | connects _ hp' | discovers _ _ hp' | reads _ _ hp' | notifies _ hp' | prepares _ _ hp'
  | starts _ _ _ hp' | verifies _ _ _ _ _ _ _ hp' | finishes _ _ hp' =>
    rw [hp'] at hp
    cases hp
  | fails hp' =>
    have hq := phase_of_fails hp'
    rw [hp] at hq
    exact absurd hq (by decide)

theorem Accounts.acked_episode {image : Image} (hi : s.image = some image) :
    acknowledgements (c ++ [s.episode e]) = (s.handle e).session.transfer.acked := by
  rw [acknowledgements_append, h.acked image hi]
  have quiet := acknowledgements_episode_of_not (s := s) (e := e)
  have elsewhere {p : Phase} (hs : s.phase = p) (hp : p ≠ .dataTransfer) :
      s.phase = .dataTransfer → e.acknowledges = false := fun h => absurd (hs ▸ h) hp
  cases h.sound.deed e with
  | stays hp ht he hd ha => rw [quiet ha, ht, Nat.add_zero]
  | connects hs hp ht | reads hs hev hp ht | prepares hs hev hp ht | starts hs hg hi hp ht
  | finishes hs hev hp ht =>
    rw [quiet (elsewhere hs (by decide)), ht, Nat.add_zero]
  | discovers hs hev hp ht =>
    rw [quiet (elsewhere hs (by decide)), ht]
    rfl
  | notifies hs hp ht =>
    rcases hs with hs | ⟨hs, -⟩
    · rw [quiet (elsewhere hs (by decide)), ht, Nat.add_zero]
    · rw [quiet (elsewhere hs (by decide)), ht, Nat.add_zero]
  | transfers hs hg hi' pos hst hp ht =>
    rw [quiet (elsewhere hs (by decide)), ht, hst, Transfer.acked_after_self,
      Transfer.acked_after_succ pos (by rw [Nat.zero_mul]; exact Image.size_pos _)]
  | next hs hev hi' pos lt hst hp ht =>
    have hle := Nat.lt_of_le_of_lt (Nat.mul_le_mul_right _ (Nat.le_succ _)) lt
    rw [acknowledgements_episode hs hev, ht, hst, Transfer.acked_after_succ pos hle,
      Transfer.acked_after_succ pos lt]
  | verifies hs hev hi' pos lt hall hst hp hw ht =>
    rw [acknowledgements_episode hs hev, ht, hst, Transfer.acked_after_succ pos lt,
      Transfer.acked_after_self]
  | fails hp he ht ha => rw [quiet ha, ht, Nat.add_zero]

theorem Accounts.commands_episode {image : Image} (hi : s.image = some image)
    (herr : (s.handle e).session.error = none) :
    Trace.writes .controlPoint (deeds (c ++ [s.episode e]))
      = (((s.handle e).session.mode.script image).take
          (s.handle e).session.phase.commandsIssued).map Command.encode := by
  rw [writes_episode, (h.sound.alike e).mode]
  have hbefore (he : (s.handle e).session.error = s.error) := h.commands image hi (he ▸ herr)
  -- each command is the next of the script, and an error ends what is promised
  cases h.sound.deed e with
  | stays hp ht he hd =>
    rw [hbefore he, hd, hp]
    exact List.append_nil _
  | connects hs hp ht he hd | reads hs hev hp ht he hd =>
    rw [hbefore he, hs, hp]
    rcases hd with hd | hd <;> rw [hd] <;> rfl
  | discovers hs hev hp ht he hd =>
    rw [hbefore he, hs, hp, hd]
    rfl
  | notifies hs hp ht he hd =>
    rw [hbefore he, hp, hd]
    rcases hs with hs | ⟨hs, -⟩ <;> rw [hs] <;> rfl
  | prepares hs hev hp ht he hd =>
    rw [hbefore he, hs, hp, hd]
    rfl
  | @starts image' hs hg hi' hp ht he hd =>
    obtain rfl : image = image' := Option.some.inj (hi.symm.trans hi')
    rw [hbefore he, hs, hp, hd]
    rfl
  | transfers hs hg hi' pos hst hp ht he hd =>
    rw [hbefore he, hs, hp, hd]
    rfl
  | next hs hev hi' pos lt hst hp ht he hd =>
    rw [hbefore he, hs, hp, hd]
    rfl
  | @verifies image' size count hs hev hi' pos lt hall hst hp hw ht he hd =>
    obtain rfl : image = image' := Option.some.inj (hi.symm.trans hi')
    rw [hbefore he, hs, hp, hd]
    rfl
  | finishes hs hev hp ht he hc =>
    rw [hbefore he, hs, hp, writes_of_finishes hc, List.append_nil]
    rfl
  | fails hp he =>
    rw [herr] at he
    cases he

theorem Accounts.verified_episode {image : Image} (hi : s.image = some image) :
    Precedes (Asks · (.command (.verify image.crc)))
      (fun b => acknowledgements b
        = (image.size + (s.handle e).session.transfer.chunkSize - 1)
          / (s.handle e).session.transfer.chunkSize) (c ++ [s.episode e]) := by
  -- the chunk size is settled, or nothing was verified so far
  rcases h.sound.chunkSize_handle (e := e) with heq | h0
  · rw [heq]
    refine (h.verified image hi).append fun hx => ?_
    obtain ⟨hs, hev, image', size, count, hi', pos, lt, hall, hst⟩ := h.sound.verifies_of_asks hx
    obtain rfl : image = image' := Option.some.inj (hi.symm.trans hi')
    have htotal := (Transfer.Books.acknowledge pos lt).chunksSent_eq
    rw [Transfer.chunksSent_after, Transfer.offset_after, Transfer.inFlight_after_self,
      Transfer.chunkSize_after, hall, Nat.add_zero] at htotal
    rw [acknowledgements_append, acknowledgements_episode hs hev, h.acked image hi, hst,
      Transfer.acked_after_succ pos lt, Transfer.chunkSize_after]
    exact htotal
  · refine .of_not fun x hx => ?_
    rcases List.mem_append.mp hx with hx | hx
    · exact h.unsized h0 x hx _
    · rw [List.mem_singleton.mp hx]
      exact fun hx => h.sound.sized_of_asks hx h0

theorem Accounts.unsized_episode (h0 : (s.handle e).session.transfer.chunkSize = 0) :
    ∀ x ∈ c ++ [s.episode e], ∀ crc, ¬ x.Asks (.command (.verify crc)) := by
  have h0 : s.transfer.chunkSize = 0 := by
    rcases h.sound.chunkSize_handle (e := e) with heq | heq
    · rw [← heq, h0]
    · exact heq
  intro x hx crc
  rcases List.mem_append.mp hx with hx | hx
  · exact h.unsized h0 x hx crc
  · rw [List.mem_singleton.mp hx]
    exact fun hx => h.sound.sized_of_asks hx h0

theorem Accounts.unanswered_episode (hp : (s.handle e).session.phase = .verify)
    (hw : (s.handle e).session.wait = .response) : Unanswered (c ++ [s.episode e]) := by
  -- verification is entered with the write outstanding, so only a silent completion starts the wait
  cases h.sound.deed e with
  | stays hp' ht he hd ha hwait =>
    have hs : s.phase = .verify := hp' ▸ hp
    rcases hwait with hwait | hread | hev
    · exact (h.unanswered hs (hwait ▸ hw)).append hs
    · rw [hread] at hs
      cases hs
    · exact ⟨c, s.episode e, [], rfl, ⟨hs, hev⟩, fun _ hz => absurd hz List.not_mem_nil⟩
  | verifies _ _ _ _ _ _ _ _ hw' =>
    rw [hw'] at hw
    cases hw
  | connects _ hp' | discovers _ _ hp' | reads _ _ hp' | notifies _ hp' | prepares _ _ hp'
  | starts _ _ _ hp' | transfers _ _ _ _ _ hp' | next _ _ _ _ _ _ hp' | finishes _ _ hp' =>
    rw [hp'] at hp
    cases hp
  | fails hp' =>
    have hq := phase_of_fails hp'
    rw [hp] at hq
    exact absurd hq (by decide)

theorem Accounts.ended_episode (hp : (s.handle e).session.phase = .complete)
    (herr : (s.handle e).session.error = none) :
    Confirmed (c ++ [s.episode e]) ∧ ∃ image, s.image = some image ∧
      (s.handle e).session.transfer.Stands image .verify := by
  cases h.sound.deed e with
  | stays hp' ht he =>
    obtain ⟨hc, hst⟩ := h.ended (hp' ▸ hp) (he ▸ herr)
    rw [ht]
    exact ⟨hc.append _, hst⟩
  | finishes hs hev hp' ht =>
    obtain ⟨image, hi⟩ := h.sound.imaged (by rw [hs]; rfl)
    have hst := h.sound.stands image hi
    rw [hs] at hst
    rw [ht]
    refine ⟨?_, image, hi, hst⟩
    rcases hev with hg | ⟨hw, error, hev⟩
    · exact .inl ⟨s.episode e, by simp, hs, hg⟩
    · exact (h.unanswered hs hw).drop ⟨hs, hw, error, hev⟩
  | connects _ hp' | discovers _ _ hp' | reads _ _ hp' | notifies _ hp' | prepares _ _ hp'
  | starts _ _ _ hp' | transfers _ _ _ _ _ hp' | next _ _ _ _ _ _ hp'
  | verifies _ _ _ _ _ _ _ hp' =>
    rw [hp'] at hp
    cases hp
  | fails _ he =>
    rw [herr] at he
    cases he

/-- One more episode, told of the session after it. -/
theorem Accounts.episode (hc : (s.handle e).crash? = none) :
    Accounts (c ++ [s.episode e]) (s.handle e).session := by
  have himage := (h.sound.alike e).image
  constructor
  case sound => exact h.sound.handle e hc
  case data => exact fun image hi => h.data_episode e (himage ▸ hi)
  case acked => exact fun image hi => h.acked_episode e (himage ▸ hi)
  case commands => exact fun image hi => h.commands_episode e (himage ▸ hi)
  case started => exact fun image hi => h.started_episode e (himage ▸ hi)
  case admitted => exact h.admitted_episode e
  case sent => exact h.sent_episode e
  case verified => exact fun image hi => h.verified_episode e (himage ▸ hi)
  case unsized => exact h.unsized_episode e
  case unanswered => exact h.unanswered_episode e
  case ended =>
    rw [himage]
    exact h.ended_episode e

end episode

/-- The account holds all through a life. -/
theorem Accounts.live {c : List Episode} {s : Session} (h : Accounts c s) (hs : List Happening)
    (hc : (s.live hs).crash? = none) : Accounts (c ++ s.chronicle hs) (s.live hs).session :=
  live_invariant (fun guard h => h.withGuard guard) (fun e h hx => h.episode e hx) h hs hc

end Session
end OtaUpgrade
