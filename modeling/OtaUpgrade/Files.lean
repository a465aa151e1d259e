import OtaUpgrade.Bytes
import OtaUpgrade.FilePath

/-!
The files a program can see, as a value: a finite list of places with their contents, or with the
refusal they meet. A directory is listed as one; the working directory, those above it and the root
always exist. Where nothing is listed, there is nothing.
-/
namespace OtaUpgrade

/-- Why a file could not be used. -/
inductive FileError where
  | notFound
  | isDirectory
  | notDirectory
  | nameTooLong
  | invalidUtf8
  /-- Any other refusal, in the system's words. -/
  | other (reason : String)
  deriving DecidableEq, Repr

/-- The wording of a refusal. -/
def FileError.message : FileError → String
  | notFound => "No such file or directory (os error 2)"
  | isDirectory => "Is a directory (os error 21)"
  | notDirectory => "Not a directory (os error 20)"
  | nameTooLong => "File name too long (os error 36)"
  | invalidUtf8 => "stream did not contain valid UTF-8"
  | other reason => reason

/-- No name is longer than 255 bytes. -/
def FilePath.Step.tooLong : FilePath.Step → Bool
  | .into name => 255 < name.utf8ByteSize
  | _ => false

/-- Contents or refusal by place; the first entry of a place counts. -/
structure Files where
  entries : List (Place × Except FileError Bytes) := []

namespace Files

/-- The files with these paths. -/
def ofList (files : List (String × Except FileError Bytes)) : Files :=
  ⟨files.map fun (path, found) => ((FilePath.read path).place, found)⟩

/-- What is at a place. -/
def look (files : Files) (place : Place) : Except FileError Bytes :=
  match files.entries.lookup place, place with
  | some found, _ => found
  | none, .inside .. => .error .notFound
  | none, _ => .error .isDirectory

/-- The place one step on, where there is a directory to take the step from. -/
def enter (files : Files) (place : Place) (step : FilePath.Step) : Except FileError Place :=
  match files.look place with
  | .ok _ => .error .notDirectory
  | .error .isDirectory => if step.tooLong then .error .nameTooLong else .ok (place.after step)
  | .error e => .error e

/-- The place some steps on. -/
def follow (files : Files) (place : Place) : List FilePath.Step → Except FileError Place
  | [] => .ok place
  | step :: steps =>
    match files.enter place step with
    | .ok place => files.follow place steps
    | .error e => .error e

/-- The place that a path leads to by the steps one chooses of it. A path has from one to 4095
bytes. -/
def resolve (files : Files) (path : String) (steps : FilePath → List FilePath.Step) :
    Except FileError Place :=
  if path = "" then .error .notFound
  else if 4096 ≤ path.utf8ByteSize then .error .nameTooLong
  else files.follow (FilePath.read path).start (steps (FilePath.read path))

/-- The contents of a file. -/
def read (files : Files) (path : String) : Except FileError Bytes :=
  match files.resolve path FilePath.stepsToRead with
  | .ok place => files.look place
  | .error e => .error e

/-- The contents of a text file. -/
def readText (files : Files) (path : String) : Except FileError String :=
  match files.read path with
  | .error e => .error e
  | .ok bs =>
    match String.fromUTF8? ⟨bs.toArray⟩ with
    | some text => .ok text
    | none => .error .invalidUtf8

/-- The files once something else is at a place. -/
def put (files : Files) (place : Place) (found : Except FileError Bytes) : Files :=
  ⟨(place, found) :: files.entries⟩

/-- The files once one of them has these contents, new or instead of those before. -/
def write (files : Files) (path : String) (contents : Bytes) : Except FileError Files :=
  match files.resolve path FilePath.stepsToWrite with
  | .error e => .error e
  | .ok place =>
    match files.look place with
    | .ok _ | .error .notFound => .ok (files.put place (.ok contents))
    | .error e => .error e

/-! ## What was written can be read -/

@[simp] theorem look_put (files : Files) (place : Place) (found : Except FileError Bytes) :
    (files.put place found).look place = found := by
  simp [look, put]

theorem look_put_of_ne (files : Files) {place other : Place} (found : Except FileError Bytes)
    (h : other ≠ place) : (files.put place found).look other = files.look other := by
  simp [look, put, List.lookup_cons, beq_false_of_ne h]

theorem look_of_enter {files : Files} {place next : Place} {step : FilePath.Step}
    (h : files.enter place step = .ok next) : files.look place = .error .isDirectory := by
  simp only [enter] at h
  split at h <;> first | assumption | cases h

/-- A file put where there is no directory stands in no one's way. -/
theorem follow_put {files : Files} {place : Place} (found : Except FileError Bytes)
    (hp : files.look place ≠ .error .isDirectory) (start : Place) (steps : List FilePath.Step)
    {target : Place} (h : files.follow start steps = .ok target) :
    (files.put place found).follow start steps = .ok target := by
  induction steps generalizing start with
  | nil => exact h
  | cons step steps ih =>
    simp only [follow] at h ⊢
    split at h
    · rename_i next he
      have hs := look_of_enter he
      have hne : start ≠ place := fun e => hp (e ▸ hs)
      have he' : (files.put place found).enter start step = .ok next := by
        simpa [enter, look_put_of_ne files found hne] using he
      rw [he']
      exact ih next h
    · cases h

/-- A path with a slash behind it gets no further than a directory, to be written to. -/
theorem look_of_follow_stay {files : Files} {start target : Place} (steps : List FilePath.Step)
    (h : files.follow start (steps ++ [.stay]) = .ok target) :
    files.look target = .error .isDirectory := by
  induction steps generalizing start with
  | nil =>
    simp only [List.nil_append, follow] at h
    split at h
    · rename_i next he
      have hs := look_of_enter he
      simp only [enter, hs, FilePath.Step.tooLong, Place.after] at he
      cases h
      cases he
      exact hs
    · cases h
  | cons step steps ih =>
    simp only [List.cons_append, follow] at h
    split at h
    · exact ih h
    · cases h

theorem read_of_write {files written : Files} {path : String} {contents : Bytes}
    (h : files.write path contents = .ok written) : written.read path = .ok contents := by
  simp only [write] at h
  split at h
  · cases h
  · rename_i place hr
    have hp : files.look place ≠ .error .isDirectory ∧ written = files.put place (.ok contents) := by
      split at h <;> cases h <;> simp_all
    obtain ⟨hd, rfl⟩ := hp
    simp only [resolve] at hr
    split at hr
    · cases hr
    · split at hr
      · cases hr
      · rename_i h1 h2
        have hs : (FilePath.read path).slashed = false := by
          cases hs : (FilePath.read path).slashed with
          | false => rfl
          | true =>
            simp only [FilePath.stepsToWrite, hs, if_true] at hr
            exact absurd (look_of_follow_stay _ hr) hd
        have hw : (FilePath.read path).stepsToWrite = (FilePath.read path).stepsToRead := by
          simp [FilePath.stepsToWrite, FilePath.stepsToRead, hs]
        rw [hw] at hr
        simp [read, resolve, h1, h2, follow_put _ hd _ _ hr]

end Files
end OtaUpgrade
