import Mathlib
import OtaUpgrade.Config.File
import OtaUpgrade.Proofs.Toml.Documents

/-!
Settings survive the file that they are saved to. A document holds them whole: what is unset is left
out and comes back as unset, and what is set comes back as it was. So a file that took the settings
loads as exactly them when they are usable, and is refused over the same rule when they are not.
-/
namespace OtaUpgrade

open Toml (Entries Node)

/-! ## Texts as bytes -/

/-- A text is told from its bytes. -/
theorem fromUTF8?_toUTF8 (text : String) :
    String.fromUTF8? ⟨text.toUTF8.data.toList.toArray⟩ = some text := by
  rw [Array.toArray_toList]
  exact dif_pos text.isValidUTF8

theorem utf8_mem {text : String} {c : Char} (h : c ∈ text.toList) {b : UInt8}
    (hb : b ∈ String.utf8EncodeChar c) : b ∈ text.toUTF8.data.toList := by
  rw [String.toUTF8, ← String.utf8Encode_toList, List.utf8Encode, List.toList_data_toByteArray]
  exact List.mem_flatMap.mpr ⟨c, h, hb⟩

/-! ## Hexadecimal texts can be written -/

namespace Hex

/-- Only digits are read in pairs. -/
theorem value?_of_decodePairs {index : Nat} {text bs : Bytes}
    (h : decodePairs index text = .ok bs) (he : text.length % 2 = 0) :
    ∀ b ∈ text, (value? b).isSome := by
  fun_induction decodePairs index text generalizing bs with
  | case1 => cases h
  | case2 => cases h
  | case3 index high low rest low' high' hl hh read hread ih =>
    simp only [List.length_cons] at he
    have hrest := ih hread (by omega)
    simp_all
  | case4 => cases h
  | case5 text index hpairs =>
    -- No pair is left, and of an even count no single character either.
    cases text with
    | nil => simp
    | cons b text =>
      cases text with
      | nil => simp at he
      | cons b' text => exact absurd rfl (hpairs b b' text)

theorem value?_of_decode {text : String} {bs : Bytes} (h : decode text = .ok bs) :
    ∀ b ∈ text.toUTF8.data.toList, (value? b).isSome := by
  unfold decode decodeBytes at h
  split at h
  · cases h
  · exact value?_of_decodePairs h (by omega)

end Hex

theorem Toml.longestRun_of_not_mem {mark : Char} {cs : List Char} (h : mark ∉ cs) :
    longestRun mark 0 cs = 0 := by
  induction cs with
  | nil => rfl
  | cons c cs ih =>
    obtain ⟨hc, hcs⟩ := not_or.mp (mt List.mem_cons.mpr h)
    simp [longestRun, Ne.symm hc, ih hcs]

/-- Hexadecimal text has no marks in it. -/
theorem Hex.isCountable_of_decode {text : String} {bs : Bytes} (h : decode text = .ok bs) :
    Toml.isCountable text = true := by
  have hne {mark : Char} {b : UInt8} (hb : b ∈ String.utf8EncodeChar mark) (hv : value? b = none) :
      mark ∉ text.toList := by
    intro hmem
    have hsome := value?_of_decode h b (utf8_mem hmem hb)
    simp [hv] at hsome
  have hq : '"' ∉ text.toList := hne (b := 34) (by decide) (by decide)
  have ha : '\'' ∉ text.toList := hne (b := 39) (by decide) (by decide)
  simp [Toml.isCountable, Toml.longestRun_of_not_mem hq, Toml.longestRun_of_not_mem ha]

/-! ## The document of settings -/

/-- What is in a table. -/
def Toml.Node.inner : Node → Entries
  | .table _ es => es
  | _ => []

namespace Config

variable {c : Config}

/-- The entries in front of the tables. -/
def values (c : Config) : Entries :=
  (c.chunkSize.map fun (size : Nat) => ("chunk_size", Node.integer size)).toList
    ++ [("att_overhead", .integer c.attOverhead)]

/-- The tables with their names. -/
def tables (c : Config) : List (String × Entries) :=
  ("timeouts", c.timeouts.toNode.inner) :: (c.dfu.map fun d => ("dfu", d.toNode.inner)).toList

theorem toEntries_eq (c : Config) : c.toEntries = c.values ++ .ofTables c.tables := by
  obtain ⟨chunkSize, attOverhead, timeouts, dfu⟩ := c
  cases chunkSize <;> cases dfu <;> rfl

theorem keyed_toEntries (c : Config) : (c.values ++ .ofTables c.tables).Keyed := by
  rw [← c.toEntries_eq]
  obtain ⟨chunkSize, attOverhead, timeouts, dfu⟩ := c
  constructor
  · cases chunkSize <;> cases dfu <;> simp [toEntries, Entries.keys, Toml.bare_iff, Toml.isBare]
  · cases chunkSize <;> cases dfu <;> simp [toEntries, Entries.keys]

theorem keyed_tables (c : Config) : ∀ t ∈ c.tables, t.2.Keyed := by
  obtain ⟨chunkSize, attOverhead, timeouts, dfu⟩ := c
  have ht : timeouts.toNode.inner.Keyed := by
    constructor <;> simp [Timeouts.toNode, Node.inner, Entries.keys, Toml.bare_iff, Toml.isBare]
  have hd (d : DfuSection) : d.toNode.inner.Keyed := by
    constructor <;> simp [DfuSection.toNode, Node.inner, Entries.keys, Toml.bare_iff, Toml.isBare]
  cases dfu <;> simp [tables, ht, hd]

theorem isFlat_values (c : Config) : ∀ x ∈ c.values, x.2.isFlat = true := by
  obtain ⟨chunkSize, attOverhead, timeouts, dfu⟩ := c
  cases chunkSize <;> simp [values, Node.isFlat]

/-! ## What can be written -/

/-- Every number of the settings fits 64 bits with a sign. -/
@[mk_iff]
structure FitsSigned (c : Config) : Prop where
  chunkSize : c.chunkSize.getD 0 ≤ 0x7fffffffffffffff
  attOverhead : c.attOverhead ≤ 0x7fffffffffffffff
  baseMs : c.timeouts.baseMs ≤ 0x7fffffffffffffff
  extendedMs : c.timeouts.extendedMs ≤ 0x7fffffffffffffff
  connectMs : c.timeouts.connectMs ≤ 0x7fffffffffffffff

theorem fits_integer (n : Nat) : (Node.integer n).fits = true ↔ n ≤ 0x7fffffffffffffff := by
  simp only [Node.fits, Toml.fitting?]
  split <;> simp <;> omega

/-- Only the numbers outside the DFU section can be too large for a document. -/
theorem fit_toEntries (c : Config) : c.toEntries.fit = true ↔ c.FitsSigned := by
  have hshort (v : UInt16) : v.toNat ≤ 0x7fffffffffffffff := by
    have hv := v.toNat_lt
    omega
  have hbyte (v : UInt8) : v.toNat ≤ 0x7fffffffffffffff := by
    have hv := v.toNat_lt
    omega
  have htext (s : String) : (Node.text s).fits = true := rfl
  obtain ⟨chunkSize, attOverhead, timeouts, dfu⟩ := c
  cases chunkSize <;> cases dfu <;>
    simp [toEntries, Entries.fit, Timeouts.toNode, DfuSection.toNode, fitsSigned_iff, fits_integer, hshort,
      hbyte, htext]

/-- The texts of the settings can be written. -/
def IsCountable (c : Config) : Prop :=
  ∀ d ∈ c.dfu, Toml.isCountable d.firmwareId = true ∧ Toml.isCountable d.metadata = true

theorem isWritable_values (c : Config) : ∀ x ∈ c.values, x.2.isWritable = true := by
  obtain ⟨chunkSize, attOverhead, timeouts, dfu⟩ := c
  cases chunkSize <;> simp [values]

theorem isWritable_tables (c : Config) :
    (∀ t ∈ c.tables, ∀ x ∈ t.2, x.2.isWritable = true) ↔ c.IsCountable := by
  obtain ⟨chunkSize, attOverhead, timeouts, dfu⟩ := c
  cases dfu <;>
    simp only [tables, IsCountable, Timeouts.toNode, DfuSection.toNode, Node.inner,
      Node.isWritable_integer, Node.isWritable_text, Option.map_none, Option.map_some, Option.toList_none,
      Option.toList_some, List.forall_mem_cons, List.not_mem_nil, false_imp_iff, implies_true, and_true,
      true_and, Option.mem_def, reduceCtorEq, Option.some.injEq, forall_eq']

/-- Settings can be put into a document if their numbers fit and their texts can be written. -/
theorem toToml_isOk (c : Config) : (∃ text, c.toToml = .ok text) ↔ c.FitsSigned ∧ c.IsCountable := by
  rw [toToml, toEntries_eq, Toml.writeDocument_isOk c.isFlat_values, ← toEntries_eq, fit_toEntries,
    isWritable_tables]
  exact and_congr_right fun _ => and_iff_right c.isWritable_values

/-- Usable settings have a DFU section that describes metadata, if they have one. -/
theorem toMetadata_of_check {d : DfuSection} (h : c.check = .ok ()) (hd : c.dfu = some d) :
    ∃ metadata, d.toMetadata = .ok metadata := by
  cases hm : d.toMetadata with
  | ok metadata => exact ⟨metadata, rfl⟩
  | error e =>
    simp only [check, hd, hm] at h
    repeat (split at h; cases h)
    cases h

theorem decode_of_hexField {field text : String} {bs : Bytes}
    (h : DfuSection.hexField field text = .ok bs) : Hex.decode text = .ok bs := by
  unfold DfuSection.hexField at h
  split at h
  · cases h
    assumption
  · cases h

/-- Usable settings have texts that can be written, being hexadecimal. -/
theorem isCountable_of_check (h : c.check = .ok ()) : c.IsCountable := by
  intro d hd
  obtain ⟨metadata, hm⟩ := toMetadata_of_check h hd
  unfold DfuSection.toMetadata at hm
  split at hm
  · cases hm
  · rename_i firmwareId hf
    split at hm
    · cases hm
    · rename_i data hdata
      exact ⟨Hex.isCountable_of_decode (decode_of_hexField hf),
        Hex.isCountable_of_decode (decode_of_hexField hdata)⟩

/-! ## The document, read -/

/-- A document of settings describes them. -/
theorem ofToml?_toToml {text : String} (h : c.toToml = .ok text) : ofToml? text = some c := by
  have hw : Toml.writeDocument (c.values ++ .ofTables c.tables) = .ok text := c.toEntries_eq ▸ h
  have hread := Toml.read?_writeDocument c.isFlat_values c.keyed_toEntries c.keyed_tables hw
  have hfits := ((toToml_isOk c).mp ⟨text, h⟩).1
  rw [ofToml?, hread, ← c.toEntries_eq]
  have hlimit : 0x7fffffffffffffff < wordLimit := by decide
  exact ofEntries?_toEntries (hfits.chunkSize.trans_lt hlimit) (hfits.attOverhead.trans_lt hlimit)
    ⟨hfits.baseMs.trans_lt hlimit, hfits.extendedMs.trans_lt hlimit, hfits.connectMs.trans_lt hlimit⟩

theorem parse_toToml {text : String} (h : c.toToml = .ok text) :
    (c.check = .ok () → parse text = .ok c) ∧
      ∀ e, c.check = .error e → parse text = .error (.unusable e) := by
  unfold parse
  rw [ofToml?_toToml h]
  constructor
  · intro hc
    simp only [hc]
  · intro e hc
    simp only [hc]

end Config

/-! ## Files -/

/-- A file can be put where the path leads. -/
def Files.IsWritable (files : Files) (path : String) : Prop :=
  ∃ contents written, files.write path contents = .ok written

theorem Files.IsWritable.of_toBool {files : Files} {path : String} (contents : Bytes)
    (h : (files.write path contents).toBool = true) : files.IsWritable path := by
  cases hw : files.write path contents with
  | ok written => exact ⟨contents, written, hw⟩
  | error e => simp [hw, Except.toBool] at h

/-- Where a file can be put, it is put whatever it holds. -/
theorem Files.IsWritable.write {files : Files} {path : String} (h : files.IsWritable path)
    (contents : Bytes) : ∃ written, files.write path contents = .ok written := by
  obtain ⟨others, written, h⟩ := h
  unfold Files.write at h ⊢
  split at h
  · cases h
  · split at h
    · exact ⟨_, rfl⟩
    · exact ⟨_, rfl⟩
    · cases h

theorem Files.readText_of_write {files written : Files} {path text : String}
    (h : files.write path text.toUTF8.data.toList = .ok written) : written.readText path = .ok text := by
  unfold readText
  rw [read_of_write h]
  dsimp only
  rw [fromUTF8?_toUTF8]

namespace Config

variable {c : Config} {files saved : Files} {path : String}

/-- Saved settings are what the file holds. -/
theorem load_of_save (h : c.save files path = .ok saved) :
    ∃ text, c.toToml = .ok text ∧ load saved path = parse text := by
  unfold save at h
  split at h
  · cases h
  · rename_i text ht
    split at h
    · rename_i written hw
      cases h
      refine ⟨text, ht, ?_⟩
      unfold load
      rw [Files.readText_of_write hw]
    · cases h

/-- Settings are saved if they can be put into a document and the document into the file. -/
theorem save_isOk : (∃ saved, c.save files path = .ok saved) ↔
    (c.FitsSigned ∧ c.IsCountable) ∧ files.IsWritable path := by
  rw [← toToml_isOk]
  unfold save
  constructor
  · rintro ⟨saved, h⟩
    split at h
    · cases h
    · rename_i text ht
      split at h
      · rename_i written hw
        exact ⟨⟨text, ht⟩, _, written, hw⟩
      · cases h
  · rintro ⟨⟨text, ht⟩, hw⟩
    obtain ⟨written, hw⟩ := hw.write text.toUTF8.data.toList
    exact ⟨written, by simp only [ht, hw]⟩

/-- Usable settings whose numbers fit are saved wherever a file can be put, and load as exactly
themselves. Settings that break a rule are refused over that rule when the file they were saved to is
loaded. -/
theorem saved_then_loaded (c : Config) (files : Files) (path : String) :
    (c.check = .ok () → c.FitsSigned → files.IsWritable path →
      ∃ saved, c.save files path = .ok saved ∧ load saved path = .ok c) ∧
    ∀ e saved, c.check = .error e → c.save files path = .ok saved →
      load saved path = .error (.unusable e) := by
  constructor
  · intro hc hfits hw
    obtain ⟨saved, hs⟩ := save_isOk.mpr ⟨⟨hfits, isCountable_of_check hc⟩, hw⟩
    obtain ⟨text, ht, hl⟩ := load_of_save hs
    exact ⟨saved, hs, hl.trans ((parse_toToml ht).1 hc)⟩
  · intro e saved hc hs
    obtain ⟨text, ht, hl⟩ := load_of_save hs
    exact hl.trans ((parse_toToml ht).2 e hc)

/-- Settings with everything set, among them hexadecimal text in either case. -/
def outfitted : Config :=
  { chunkSize := some 244
    timeouts := { baseMs := 5000, extendedMs := 30000, connectMs := 0x7fffffffffffffff }
    dfu := some { companyId := 0x0059, firmwareId := "0aFF", versionMajor := 2, metadata := "" } }

/-- Settings that no chunk could be sent with. -/
def chunkless : Config :=
  { outfitted with chunkSize := some 0 }

theorem saved_then_loaded_outfitted :
    (outfitted.check = .ok () ∧ outfitted.FitsSigned ∧ Files.IsWritable {} "ota") ∧
      (∃ saved, outfitted.save {} "ota" = .ok saved ∧ load saved "ota" = .ok outfitted) ∧
      ∃ saved, chunkless.check = .error (.zero "chunk_size") ∧ chunkless.save {} "ota" = .ok saved ∧
        load saved "ota" = .error (.unusable (.zero "chunk_size")) := by
  have hc : outfitted.check = .ok () := by cbv
  have hfits : outfitted.FitsSigned := by constructor <;> decide
  have hw : Files.IsWritable {} "ota" := .of_toBool [] (by cbv)
  have hz : chunkless.check = .error (.zero "chunk_size") := if_pos rfl
  have hcount : chunkless.IsCountable := @isCountable_of_check outfitted hc
  obtain ⟨saved, hs⟩ := save_isOk.mpr ⟨⟨(by constructor <;> decide), hcount⟩, hw⟩
  exact ⟨⟨hc, hfits, hw⟩, (saved_then_loaded outfitted {} "ota").1 hc hfits hw,
    saved, hz, hs, (saved_then_loaded chunkless {} "ota").2 _ saved hz hs⟩

end Config
end OtaUpgrade
