import DialogueScript.CommandLine.Pattern.Basic

/-!
# Patterns in plain form

What a notation describes can be put together in many ways. The functions here build patterns in a
plain form: sequences and choices lean to the right, empty parts are left out, neighbouring
characters are one text, a choice between single characters is a set, and what the branches of a
choice begin with is written once in front of it.
-/

set_option autoImplicit false
set_option relaxedAutoImplicit false

namespace DialogueScript.Pattern

/-! ### Measures -/

/-- Whether a pattern can describe no text but the empty one. A set without characters describes no
text at all and is not counted. -/
def isBlank : Pattern → Bool
  | empty => true
  | text chars => chars.isEmpty
  | oneOf _ => false
  | anchor _ => true
  | sequence a b => a.isBlank && b.isBlank
  | either a b => a.isBlank && b.isBlank
  | repeated a _ more _ => a.isBlank && more.isSome
  | group _ a => a.isBlank

/-- The least number of characters of what a pattern describes, if it is known to describe any
text. -/
def leastLength? : Pattern → Option Nat
  | empty => some 0
  | text chars => some chars.length
  | oneOf set => if set.ranges.isEmpty then none else some 1
  | anchor _ => some 0
  | sequence a b => return (← a.leastLength?) + (← b.leastLength?)
  | either a b => return min (← a.leastLength?) (← b.leastLength?)
  | repeated a least _ _ => a.leastLength?.map (least * ·)
  | group _ a => a.leastLength?

/-- Whether all texts that a pattern describes start where the whole text does, as far as it
shows. -/
def startsAtFirst : Pattern → Bool
  | anchor condition => condition = .first
  | sequence a b => a.startsAtFirst || a.isBlank && b.startsAtFirst
  | either a b => a.startsAtFirst && b.startsAtFirst
  | repeated a least _ _ => least != 0 && a.startsAtFirst
  | group _ a => a.startsAtFirst
  | _ => false

/-- Whether all texts that a pattern describes end where the whole text does, as far as it shows. -/
def endsAtLast : Pattern → Bool
  | anchor condition => condition = .last
  | sequence a b => b.endsAtLast || b.isBlank && a.endsAtLast
  | either a b => a.endsAtLast && b.endsAtLast
  | repeated a least _ _ => least != 0 && a.endsAtLast
  | group _ a => a.endsAtLast
  | _ => false

/-- Whether a pattern asks for words with letters outside of ASCII. -/
def needsUnicodeWords : Pattern → Bool
  | anchor (.words isUnicode _) => isUnicode
  | sequence a b => a.needsUnicodeWords || b.needsUnicodeWords
  | either a b => a.needsUnicodeWords || b.needsUnicodeWords
  | repeated a _ _ _ => a.needsUnicodeWords
  | group _ a => a.needsUnicodeWords
  | _ => false

/-! ### Sets and repetitions -/

/-- One character of a set. -/
def ofSet (set : CharSet) : Pattern :=
  match set.only? with
  | some c => text [c]
  | none => oneOf set

/-- So many occurrences of a pattern, and any number or so many more. What is blank occurs once at
most. -/
def repeatOf (a : Pattern) (least : Nat) (more : Option Nat) (prefersMany : Bool) : Pattern :=
  let (least, more) :=
    if a.isBlank then
      let most := more.elim 1 (min 1 <| least + ·)
      (min 1 least, some (most - min 1 least))
    else (least, more)
  if least = 0 ∧ more = some 0 then empty
  else if least = 1 ∧ more = some 0 then a
  else repeated a least more prefersMany

/-! ### Sequences -/

/-- The parts of a pattern that stand one behind another. -/
def parts : Pattern → List Pattern
  | empty => []
  | sequence a b => a :: b.parts
  | a => [a]

/-- Parts with texts that are neighbours made one. -/
def joinTexts : List Pattern → List Pattern
  | [] => []
  | text chars :: rest =>
    match joinTexts rest with
    | text more :: others => text (chars ++ more) :: others
    | others => text chars :: others
  | a :: rest => a :: joinTexts rest

/-- The pattern of some parts. -/
def ofParts : List Pattern → Pattern
  | [] => empty
  | [a] => a
  | a :: rest => sequence a (ofParts rest)

/-- Patterns one behind another. -/
def sequenceOf (patterns : List Pattern) : Pattern :=
  ofParts (joinTexts (patterns.flatMap parts))

/-! ### Choices -/

/-- The patterns between which a pattern chooses. -/
def branches : Pattern → List Pattern
  | either a b => a :: b.branches
  | a => [a]

/-- The choice between some branches. -/
def ofBranches : List Pattern → Pattern
  | [] => oneOf .none
  | [a] => a
  | a :: rest => either a (ofBranches rest)

/-- The set of some single characters. -/
def singleChars? (branches : List Pattern) : Option CharSet :=
  branches.foldr (fun branch set =>
    match branch, set with
    | text [c], some set => some ((CharSet.single c).union set)
    | _, _ => none) (some .none)

/-- The union of some sets. -/
def setsOnly? (branches : List Pattern) : Option CharSet :=
  branches.foldr (fun branch set =>
    match branch, set with
    | oneOf first, some set => some (first.union set)
    | _, _ => none) (some .none)

/-- The parts that two lists of them begin with. -/
def sharedParts : List Pattern → List Pattern → List Pattern
  | a :: first, b :: second => if a = b then a :: sharedParts first second else []
  | _, _ => []

/-- The parts that all branches begin with, if each has several parts. -/
def commonParts : List Pattern → List Pattern
  | [] => []
  | branch :: rest =>
    if (branch :: rest).all (1 < ·.parts.length) then
      rest.foldl (fun shared branch => sharedParts shared branch.parts) branch.parts
    else []

/-- A choice between patterns. What all branches begin with is taken out of them so many times at
most. -/
def choiceWithin : Nat → List Pattern → Pattern
  | 0, patterns => ofBranches (patterns.flatMap branches)
  | fuel + 1, patterns =>
    match patterns.flatMap branches with
    | [] => ofBranches []
    | [branch] => branch
    | branches =>
      match singleChars? branches, setsOnly? branches, commonParts branches with
      | some set, _, _ => ofSet set
      | none, some set, _ => ofSet set
      | none, none, [] => ofBranches branches
      | none, none, shared =>
        let rests := branches.map fun branch => ofParts (branch.parts.drop shared.length)
        sequenceOf (shared ++ [choiceWithin fuel rests])

/-- A choice between patterns. Whenever a beginning is taken out of the branches they lose a
part. -/
def choiceOf (patterns : List Pattern) : Pattern :=
  choiceWithin ((patterns.flatMap parts).length + 1) patterns

end DialogueScript.Pattern
