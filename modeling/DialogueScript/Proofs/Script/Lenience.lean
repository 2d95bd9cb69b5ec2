import DialogueScript.Proofs.Script.RoundTrip

/-!
# Changes that reading passes over

A script can be read back from its JSON form, and from every form that keeps what the script says.
`Edit` lists the changes that keep it: the fields of a record may be put in another order, a record
may have more fields under names that mean nothing to it, it may lack a list that is empty or a
speaker where there is none, and a case that carries nothing may be an object that holds a null.
Such a change may be made at any depth, and any number of them one after another
(`ofJson?_of_edits`).

A reader of a record looks at no more than the fields of the names that it knows
(`Record.read_congr`). No name that it knows occurs twice in what a script is written as, and no
change makes it occur twice; this is the invariant that the changes keep, at every depth (`Tidy`).
It is what makes a lookup indifferent to the order of the fields.
-/

set_option autoImplicit false
set_option relaxedAutoImplicit false

namespace DialogueScript.JsonForm

open Json

/-! ### The parts of the form -/

/-- The records of the form. -/
inductive Record where
  | script
  | dialog
  | selection
  /-- What a speaker with a name carries. -/
  | named
  /-- What a call of a game function carries. -/
  | call
deriving DecidableEq

/-- The unions of the form. -/
inductive Union where
  | window
  | speaker
  | token
deriving DecidableEq

/-- The lists of the form whose elements may change. -/
inductive Listing where
  | windows
  | lines
  | line
deriving DecidableEq

/-- The parts of the form that may change. -/
inductive Part where
  | record (record : Record)
  | union (union : Union)
  | list (listing : Listing)
deriving DecidableEq

namespace Record

/-- The names that a record knows. -/
def names : Record → List String
  | script => ["format_version", "windows"]
  | dialog => ["identifier", "speaker", "lines"]
  | selection => ["identifier", "lines"]
  | named => ["name_line"]
  | call => ["table_index", "function_index", "arguments"]

/-- The fields that a record may lack where they hold a certain value. -/
def mayLack : Record → List (String × Json)
  | script => [("windows", .array [])]
  | dialog => [("speaker", .null), ("lines", .array [])]
  | selection => [("lines", .array [])]
  | named => []
  | call => [("arguments", .array [])]

/-- The parts that a record has in its fields. -/
def parts : Record → List (String × Part)
  | script => [("windows", .list .windows)]
  | dialog => [("speaker", .union .speaker), ("lines", .list .lines)]
  | selection => [("lines", .list .lines)]
  | named => [("name_line", .list .line)]
  | call => []

end Record

namespace Union

/-- The cases of a union that carry a record. -/
def cases : Union → List (String × Record)
  | window => [("dialog", .dialog), ("selection", .selection)]
  | speaker => [("named", .named)]
  | token => [("function", .call)]

/-- The cases of a union that carry nothing. -/
def units : Union → List String
  | window => []
  | speaker => ["variablyNamed"]
  | token => ["newLine"]

end Union

/-- The part that each element of a list is. -/
def Listing.element : Listing → Part
  | windows => .union .window
  | lines => .list .line
  | line => .union .token

/-- A change to a part of the form that keeps what it says. -/
inductive Edit : Part → Json → Json → Prop
  /-- The fields of a record in another order. -/
  | reorder {record : Record} {fields others : List (String × Json)} (h : fields.Perm others) :
      Edit (.record record) (.object fields) (.object others)
  /-- One more field, of a name that the record does not know and with any value. -/
  | add {record : Record} {name : String} (value : Json) {before after : List (String × Json)}
      (h : name ∉ record.names) :
      Edit (.record record) (.object (before ++ after)) (.object (before ++ (name, value) :: after))
  /-- One field less, which the record may lack. -/
  | leaveOut {record : Record} {field : String × Json} {before after : List (String × Json)}
      (h : field ∈ record.mayLack) :
      Edit (.record record) (.object (before ++ field :: after)) (.object (before ++ after))
  /-- A case that carries nothing, as an object that holds a null. -/
  | unit {union : Union} {name : String} (h : name ∈ union.units) :
      Edit (.union union) (.string name) (.variant name .null)
  /-- A change within a field of a record. -/
  | field {record : Record} {name : String} {part : Part} {old new : Json}
      {before after : List (String × Json)} (h : (name, part) ∈ record.parts)
      (hedit : Edit part old new) :
      Edit (.record record) (.object (before ++ (name, old) :: after))
        (.object (before ++ (name, new) :: after))
  /-- A change within what a case of a union carries. -/
  | payload {union : Union} {name : String} {record : Record} {old new : Json}
      (h : (name, record) ∈ union.cases) (hedit : Edit (.record record) old new) :
      Edit (.union union) (.variant name old) (.variant name new)
  /-- A change within an element of a list. -/
  | element {listing : Listing} {old new : Json} {before after : List Json}
      (hedit : Edit listing.element old new) :
      Edit (.list listing) (.array (before ++ old :: after)) (.array (before ++ new :: after))

/-! ### Reading a part -/

namespace Part

/-- What a part is read as. -/
def Value : Part → Type
  | record .script => Script
  | record .dialog => Window
  | record .selection => Window
  | record .named => Speaker
  | record .call => Token
  | union .window => Window
  | union .speaker => Option Speaker
  | union .token => Token
  | list .windows => List Window
  | list .lines => List Line
  | list .line => Line

/-- Reads a part. The records that a union carries are read as the cases of the union. -/
def read : (part : Part) → Json → Option part.Value
  | record .script => Script.ofJson?
  | record .dialog => fun json ↦ Window.ofJson? (.variant "dialog" json)
  | record .selection => fun json ↦ Window.ofJson? (.variant "selection" json)
  | record .named => fun json ↦ Speaker.ofJson? (.variant "named" json)
  | record .call => fun json ↦ Token.ofJson? (.variant "function" json)
  | union .window => Window.ofJson?
  | union .speaker => fun json ↦ optionalSpeakerOfJson? (some json)
  | union .token => Token.ofJson?
  | list .windows => listOf Window.ofJson?
  | list .lines => listOf Line.ofJson?
  | list .line => Line.ofJson?

end Part

/-! ### Fields -/

/-- The fields of one name in two records say the same. -/
inductive SameField (record : Record) (name : String) : Option Json → Option Json → Prop
  /-- There is the same field, or none. -/
  | same (field : Option Json) : SameField record name field field
  /-- The record may lack the field. -/
  | lacks {value : Json} (h : (name, value) ∈ record.mayLack) :
      SameField record name (some value) none
  /-- The field is a part that is read alike. -/
  | part {part : Part} {old new : Json} (h : (name, part) ∈ record.parts)
      (hread : part.read new = part.read old) : SameField record name (some old) (some new)

namespace SameField

variable {α : Type} {read : Json → Option α} {record : Record} {name : String}
  {fields others : List (String × Json)}

/-- Assumes: fields of a name that say the same, where the record may not lack the name. They are
read alike. -/
theorem required_eq (h : SameField record name (fields.lookup name) (others.lookup name))
    (hmust : ∀ value, (name, value) ∉ record.mayLack)
    (hpart : ∀ part, (name, part) ∈ record.parts → ∀ old new, part.read new = part.read old →
      read new = read old) :
    required read others name = required read fields name := by
  unfold required
  generalize fields.lookup name = old at h ⊢
  generalize others.lookup name = new at h ⊢
  cases h with
  | same => rfl
  | lacks h => exact absurd h (hmust _)
  | part h hread => exact hpart _ h _ _ hread

/-- Assumes: fields of a name that say the same, where the record may lack the name if it holds no
elements. They are read alike as lists. -/
theorem optionalList_eq (h : SameField record name (fields.lookup name) (others.lookup name))
    (hempty : ∀ value, (name, value) ∈ record.mayLack → value = .array [])
    (hpart : ∀ part, (name, part) ∈ record.parts → ∀ old new, part.read new = part.read old →
      listOf read new = listOf read old) :
    optionalList read others name = optionalList read fields name := by
  unfold optionalList
  generalize fields.lookup name = old at h ⊢
  generalize others.lookup name = new at h ⊢
  cases h with
  | same => rfl
  | lacks h =>
    obtain rfl := hempty _ h
    rfl
  | part h hread => exact hpart _ h _ _ hread

/-- Assumes: speakers of dialogs that say the same. They are read alike. -/
theorem optionalSpeaker_eq
    (h : SameField .dialog "speaker" (fields.lookup "speaker") (others.lookup "speaker")) :
    optionalSpeakerOfJson? (others.lookup "speaker") =
      optionalSpeakerOfJson? (fields.lookup "speaker") := by
  generalize fields.lookup "speaker" = old at h ⊢
  generalize others.lookup "speaker" = new at h ⊢
  cases h with
  | same => rfl
  | lacks h =>
    obtain rfl : _ = Json.null := by simpa [Record.mayLack] using h
    rfl
  | part h hread =>
    obtain rfl : _ = Part.union .speaker := by simpa [Record.parts] using h
    exact hread

end SameField

/-- Assumes: a record has one part under a name. What holds of this part holds of all parts under
the name. -/
theorem Record.forall_part {record : Record} {name : String} {P : Part → Prop} (inner : Part)
    (honly : ∀ part, (name, part) ∈ record.parts → part = inner) (h : P inner) :
    ∀ part, (name, part) ∈ record.parts → P part := by
  intro part hpart
  obtain rfl := honly part hpart
  exact h

/-- Assumes: the fields of all names that a record knows say the same. The record is read alike. The
cases are the records, and in each the fields that it reads. -/
theorem Record.read_congr (record : Record) {fields others : List (String × Json)}
    (h : ∀ name ∈ record.names,
      SameField record name (fields.lookup name) (others.lookup name)) :
    (Part.record record).read (.object others) = (Part.record record).read (.object fields) := by
  cases record with
  | script =>
    have hversion : required FormatVersion.ofJson? others "format_version" =
        required FormatVersion.ofJson? fields "format_version" :=
      (h "format_version" (by decide)).required_eq (by simp [mayLack]) (by simp [parts])
    have hwindows : optionalList Window.ofJson? others "windows" =
        optionalList Window.ofJson? fields "windows" :=
      (h "windows" (by decide)).optionalList_eq (by simp [mayLack])
        (forall_part (.list .windows) (by simp [parts]) fun _ _ ↦ id)
    simp only [Part.read, Script.ofJson?, fields?, Option.bind_eq_bind, Option.bind_some, hversion,
      hwindows]
    rfl
  | dialog =>
    have hidentifier : required string? others "identifier" =
        required string? fields "identifier" :=
      (h "identifier" (by decide)).required_eq (by simp [mayLack]) (by simp [parts])
    have hspeaker := (h "speaker" (by decide)).optionalSpeaker_eq
    have hlines : optionalList Line.ofJson? others "lines" =
        optionalList Line.ofJson? fields "lines" :=
      (h "lines" (by decide)).optionalList_eq (by simp [mayLack])
        (forall_part (.list .lines) (by simp [parts]) fun _ _ ↦ id)
    simp only [Part.read, Window.ofJson?, variant, variant?, hidentifier, hspeaker, hlines]
    rfl
  | selection =>
    have hidentifier : required string? others "identifier" =
        required string? fields "identifier" :=
      (h "identifier" (by decide)).required_eq (by simp [mayLack]) (by simp [parts])
    have hlines : optionalList Line.ofJson? others "lines" =
        optionalList Line.ofJson? fields "lines" :=
      (h "lines" (by decide)).optionalList_eq (by simp [mayLack])
        (forall_part (.list .lines) (by simp [parts]) fun _ _ ↦ id)
    simp only [Part.read, Window.ofJson?, variant, variant?, hidentifier, hlines]
    rfl
  | named =>
    have hname : required Line.ofJson? others "name_line" =
        required Line.ofJson? fields "name_line" :=
      (h "name_line" (by decide)).required_eq (by simp [mayLack])
        (forall_part (.list .line) (by simp [parts]) fun _ _ ↦ id)
    simp only [Part.read, Speaker.ofJson?, variant, variant?, hname]
    rfl
  | call =>
    have htable : required int16? others "table_index" = required int16? fields "table_index" :=
      (h "table_index" (by decide)).required_eq (by simp [mayLack]) (by simp [parts])
    have hindex : required int16? others "function_index" =
        required int16? fields "function_index" :=
      (h "function_index" (by decide)).required_eq (by simp [mayLack]) (by simp [parts])
    have harguments : optionalList int16? others "arguments" =
        optionalList int16? fields "arguments" :=
      (h "arguments" (by decide)).optionalList_eq (by simp [mayLack]) (by simp [parts])
    simp only [Part.read, Token.ofJson?, variant, variant?, htable, hindex, harguments]
    rfl

/-! ### Names that occur once -/

/-- The fields of a name. -/
def fieldsOf (name : String) (fields : List (String × Json)) : List (String × Json) :=
  fields.filter (·.1 = name)

section FieldsOf

variable {name other : String} {value old new : Json} {fields others before after :
  List (String × Json)}

theorem lookup_eq_head?_fieldsOf (name : String) (fields : List (String × Json)) :
    fields.lookup name = (fieldsOf name fields).head?.map Prod.snd := by
  induction fields with
  | nil => rfl
  | cons field rest ih =>
    obtain ⟨other, value⟩ := field
    rw [List.lookup_cons, fieldsOf, List.filter_cons, ← fieldsOf]
    by_cases h : other = name
    · subst h
      simp
    · simp [h, ih, beq_eq_false_iff_ne.mpr (Ne.symm h)]

theorem fieldsOf_insert (name : String) (before after : List (String × Json)) (other : String)
    (value : Json) :
    fieldsOf name (before ++ (other, value) :: after) = fieldsOf name before ++
      ((if other = name then [(other, value)] else []) ++ fieldsOf name after) := by
  rw [fieldsOf, List.filter_append, List.filter_cons]
  simp only [decide_eq_true_eq]
  split_ifs <;> rfl

/-- A field of another name makes no difference. -/
theorem fieldsOf_insert_of_ne (h : other ≠ name) :
    fieldsOf name (before ++ (other, value) :: after) = fieldsOf name (before ++ after) := by
  rw [fieldsOf_insert, if_neg h, List.nil_append, fieldsOf, fieldsOf, fieldsOf, List.filter_append]

/-- Assumes: a name that occurs once occurs at a place. There is no field of it without the one at
this place. -/
theorem fieldsOf_around (h : (fieldsOf name (before ++ (name, value) :: after)).length ≤ 1) :
    fieldsOf name before = [] ∧ fieldsOf name after = [] := by
  rw [fieldsOf_insert, if_pos rfl] at h
  simp only [List.length_append, List.length_singleton] at h
  exact ⟨List.length_eq_zero_iff.mp (by omega), List.length_eq_zero_iff.mp (by omega)⟩

/-- The first field of a name is the one that is found. -/
theorem lookup_insert (h : fieldsOf name before = []) :
    (before ++ (name, value) :: after).lookup name = some value := by
  rw [lookup_eq_head?_fieldsOf, fieldsOf_insert, if_pos rfl, h]
  rfl

theorem lookup_append_eq_none (hbefore : fieldsOf name before = [])
    (hafter : fieldsOf name after = []) : (before ++ after).lookup name = none := by
  rw [lookup_eq_head?_fieldsOf, fieldsOf, List.filter_append, ← fieldsOf, ← fieldsOf, hbefore,
    hafter]
  rfl

/-- Assumes: a name occurs at most once. The same fields in another order have the same field of the
name. -/
theorem fieldsOf_perm (h : fields.Perm others) (honce : (fieldsOf name fields).length ≤ 1) :
    fieldsOf name others = fieldsOf name fields := by
  have hperm : (fieldsOf name others).Perm (fieldsOf name fields) := h.symm.filter _
  match hfields : fieldsOf name fields, honce with
  | [], _ => exact List.perm_nil.mp (hfields ▸ hperm)
  | [field], _ => exact List.perm_singleton.mp (hfields ▸ hperm)

end FieldsOf

/-- Every name that a record knows occurs in it at most once, and so in all parts of the record. -/
inductive Tidy : Part → Json → Prop
  | record {record : Record} {fields : List (String × Json)}
      (honce : ∀ name ∈ record.names, (fieldsOf name fields).length ≤ 1)
      (hparts : ∀ name part value, (name, part) ∈ record.parts → (name, value) ∈ fields →
        Tidy part value) :
      Tidy (.record record) (.object fields)
  | payload {union : Union} {name : String} {value : Json}
      (h : ∀ record, (name, record) ∈ union.cases → Tidy (.record record) value) :
      Tidy (.union union) (.variant name value)
  | unit (union : Union) (name : String) : Tidy (.union union) (.string name)
  /-- No speaker. -/
  | null (union : Union) : Tidy (.union union) .null
  | list {listing : Listing} {elements : List Json}
      (h : ∀ element ∈ elements, Tidy listing.element element) :
      Tidy (.list listing) (.array elements)

theorem Tidy.of_payload {union : Union} {name : String} {record : Record} {value : Json}
    (h : Tidy (.union union) (.variant name value)) (hcase : (name, record) ∈ union.cases) :
    Tidy (.record record) value := by
  cases h with
  | payload h => exact h record hcase

theorem Tidy.of_list {listing : Listing} {elements : List Json}
    (h : Tidy (.list listing) (.array elements)) :
    ∀ element ∈ elements, Tidy listing.element element := by
  cases h with
  | list h => exact h

/-- A record knows the names of its parts. -/
theorem Record.mem_names_of_mem_parts {record : Record} :
    ∀ field ∈ record.parts, field.1 ∈ record.names := by
  cases record <;> decide

/-- A record has one part under a name. -/
theorem Record.part_unique {record : Record} :
    ∀ field ∈ record.parts, ∀ other ∈ record.parts, field.1 = other.1 → field.2 = other.2 := by
  cases record <;> decide

/-- A union has one case of a name. -/
theorem Union.case_unique {union : Union} :
    ∀ case ∈ union.cases, ∀ other ∈ union.cases, case.1 = other.1 → case.2 = other.2 := by
  cases union <;> decide

/-- A case that carries nothing is no case that carries a record. -/
theorem Union.ne_of_mem_units {union : Union} :
    ∀ name ∈ union.units, ∀ case ∈ union.cases, case.1 ≠ name := by
  cases union <;> decide

/-! ### What one change preserves -/

/-- A change keeps the invariant. The induction is on where the change is made. -/
theorem Edit.tidy {part : Part} {old new : Json} (hedit : Edit part old new)
    (h : Tidy part old) : Tidy part new := by
  induction hedit with
  | reorder hperm =>
    obtain ⟨honce, hparts⟩ := h
    refine .record (fun name hname ↦ ?_) fun name part value hpart hmem ↦ ?_
    · rw [fieldsOf_perm hperm (honce name hname)]
      exact honce name hname
    · exact hparts name part value hpart (hperm.mem_iff.mpr hmem)
  | @add record name value before after hunknown =>
    obtain ⟨honce, hparts⟩ := h
    refine .record (fun known hknown ↦ ?_) fun known part held hpart hmem ↦ ?_
    · rw [fieldsOf_insert_of_ne (ne_of_mem_of_not_mem hknown hunknown).symm]
      exact honce known hknown
    · rcases List.mem_append.mp hmem with hbefore | hafter
      · exact hparts known part held hpart (List.mem_append_left _ hbefore)
      · rcases List.mem_cons.mp hafter with heq | hafter
        · obtain ⟨rfl, -⟩ := Prod.mk.inj heq
          exact absurd (Record.mem_names_of_mem_parts _ hpart) hunknown
        · exact hparts known part held hpart (List.mem_append_right _ hafter)
  | @leaveOut record field before after hlack =>
    obtain ⟨honce, hparts⟩ := h
    have hsub : (before ++ after).Sublist (before ++ field :: after) :=
      (List.Sublist.refl before).append (List.sublist_cons_self field after)
    refine .record (fun name hname ↦ ?_) fun name part value hpart hmem ↦ ?_
    · exact ((hsub.filter _).length_le).trans (honce name hname)
    · exact hparts name part value hpart (hsub.subset hmem)
  | @unit union name hunit =>
    refine .payload fun record hcase ↦ ?_
    exact absurd rfl (Union.ne_of_mem_units name hunit _ hcase)
  | @field record name part old new before after hpart hedit ih =>
    obtain ⟨honce, hparts⟩ := h
    have hnew := ih (hparts name part old hpart (by simp))
    refine .record (fun known hknown ↦ ?_) fun known other held hother hmem ↦ ?_
    · have hlength := honce known hknown
      rw [fieldsOf_insert] at hlength ⊢
      split_ifs at hlength ⊢ <;> simpa using hlength
    · rcases List.mem_append.mp hmem with hbefore | hafter
      · exact hparts known other held hother (List.mem_append_left _ hbefore)
      · rcases List.mem_cons.mp hafter with heq | hafter
        · obtain ⟨rfl, rfl⟩ := Prod.mk.inj heq
          obtain rfl : other = part := Record.part_unique _ hother _ hpart rfl
          exact hnew
        · exact hparts known other held hother
            (List.mem_append_right _ (List.mem_cons_of_mem _ hafter))
  | @payload union name record old new hcase hedit ih =>
    refine .payload fun other hother ↦ ?_
    obtain rfl : other = record := Union.case_unique _ hother _ hcase rfl
    exact ih (h.of_payload hcase)
  | @element listing old new before after hedit ih =>
    have hlist := h.of_list
    refine .list fun element helement ↦ ?_
    rcases List.mem_append.mp helement with hbefore | hafter
    · exact hlist element (List.mem_append_left _ hbefore)
    · rcases List.mem_cons.mp hafter with rfl | hafter
      · exact ih (hlist old (by simp))
      · exact hlist element (List.mem_append_right _ (List.mem_cons_of_mem _ hafter))

/-- A change within a record leads to the same reading if every field that the record knows says the
same. -/
theorem sameField_of_fieldsOf_eq {record : Record} {name : String}
    {fields others : List (String × Json)} (h : fieldsOf name others = fieldsOf name fields) :
    SameField record name (fields.lookup name) (others.lookup name) := by
  rw [lookup_eq_head?_fieldsOf, lookup_eq_head?_fieldsOf, h]
  exact .same _

/-- A union is read alike if what its case carries is. -/
theorem Union.read_payload_congr {union : Union} {name : String} {record : Record} {old new : Json}
    (hcase : (name, record) ∈ union.cases)
    (h : (Part.record record).read new = (Part.record record).read old) :
    (Part.union union).read (.variant name new) = (Part.union union).read (.variant name old) := by
  cases union with
  | window =>
    simp only [cases, List.mem_cons, Prod.mk.injEq, List.not_mem_nil, or_false] at hcase
    rcases hcase with ⟨rfl, rfl⟩ | ⟨rfl, rfl⟩
    · exact h
    · exact h
  | speaker =>
    obtain ⟨rfl, rfl⟩ := Prod.mk.inj (List.mem_singleton.mp hcase)
    exact congrArg (Option.map some) h
  | token =>
    obtain ⟨rfl, rfl⟩ := Prod.mk.inj (List.mem_singleton.mp hcase)
    exact h

/-- A case that carries nothing is read alike in both of its forms. -/
theorem Union.read_unit_congr {union : Union} {name : String} (hunit : name ∈ union.units) :
    (Part.union union).read (.variant name .null) = (Part.union union).read (.string name) := by
  cases union with
  | window => exact absurd hunit List.not_mem_nil
  | speaker =>
    obtain rfl := List.mem_singleton.mp hunit
    rfl
  | token =>
    obtain rfl := List.mem_singleton.mp hunit
    rfl

theorem listOf_congr {α : Type} {read : Json → Option α} {old new : Json}
    {before after : List Json} (h : read new = read old) :
    listOf read (.array (before ++ new :: after)) =
      listOf read (.array (before ++ old :: after)) := by
  simp [listOf, elements?, List.mapM_append, List.mapM_cons, h]

/-- A list is read alike if each element is. -/
theorem Listing.read_congr {listing : Listing} {old new : Json} {before after : List Json}
    (h : listing.element.read new = listing.element.read old) :
    (Part.list listing).read (.array (before ++ new :: after)) =
      (Part.list listing).read (.array (before ++ old :: after)) := by
  cases listing with
  | windows => exact listOf_congr h
  | lines => exact listOf_congr h
  | line => exact congrArg (Option.map Line.mk) (listOf_congr h)

/-- A change to a part that keeps the invariant is read alike. The induction is on where the change
is made. -/
theorem Edit.read_eq {part : Part} {old new : Json} (hedit : Edit part old new)
    (h : Tidy part old) : part.read new = part.read old := by
  induction hedit with
  | reorder hperm =>
    obtain ⟨honce, -⟩ := h
    exact Record.read_congr _ fun name hname ↦
      sameField_of_fieldsOf_eq (fieldsOf_perm hperm (honce name hname))
  | add value hunknown =>
    exact Record.read_congr _ fun name hname ↦
      sameField_of_fieldsOf_eq (fieldsOf_insert_of_ne (ne_of_mem_of_not_mem hname hunknown).symm)
  | @leaveOut record field before after hlack =>
    obtain ⟨honce, -⟩ := h
    obtain ⟨name, value⟩ := field
    refine Record.read_congr _ fun known hknown ↦ ?_
    by_cases hne : name = known
    · subst hne
      obtain ⟨hbefore, hafter⟩ := fieldsOf_around (honce name hknown)
      rw [lookup_insert hbefore, lookup_append_eq_none hbefore hafter]
      exact .lacks hlack
    · exact sameField_of_fieldsOf_eq (fieldsOf_insert_of_ne hne).symm
  | unit hunit => exact Union.read_unit_congr hunit
  | @field record name part old new before after hpart hedit ih =>
    obtain ⟨honce, hparts⟩ := h
    have hread := ih (hparts name part old hpart (by simp))
    refine Record.read_congr _ fun known hknown ↦ ?_
    by_cases hne : name = known
    · subst hne
      have hbefore := (fieldsOf_around (honce name hknown)).1
      rw [lookup_insert hbefore, lookup_insert hbefore]
      exact .part hpart hread
    · refine sameField_of_fieldsOf_eq ?_
      rw [fieldsOf_insert_of_ne hne, fieldsOf_insert_of_ne hne]
  | payload hcase hedit ih => exact Union.read_payload_congr hcase (ih (h.of_payload hcase))
  | element hedit ih => exact Listing.read_congr (ih (h.of_list _ (by simp)))

/-! ### What is written is tidy -/

/-- Assumes: no name occurs twice in a record. No name occurs in it more than once. -/
theorem length_fieldsOf_le_one {name : String} {fields : List (String × Json)}
    (h : (fields.map Prod.fst).Nodup) : (fieldsOf name fields).length ≤ 1 := by
  have hcount := List.nodup_iff_count_le_one.mp h name
  rw [List.count_eq_countP, List.countP_map, List.countP_eq_length_filter] at hcount
  exact hcount

theorem tidy_token (token : Token) : Tidy (.union .token) token.toJson := by
  cases token with
  | text content => exact .payload (by simp [Union.cases])
  | newLine => exact .unit _ _
  | function table index arguments =>
    refine .payload fun record hrecord ↦ ?_
    obtain ⟨-, rfl⟩ := Prod.mk.inj (List.mem_singleton.mp hrecord)
    exact .record (fun _ _ ↦ length_fieldsOf_le_one (by simp)) (by simp [Record.parts])

theorem tidy_line (line : Line) : Tidy (.list .line) line.toJson := by
  refine .list fun element helement ↦ ?_
  obtain ⟨token, -, rfl⟩ := List.mem_map.mp helement
  exact tidy_token token

theorem tidy_lines (lines : List Line) : Tidy (.list .lines) (.array (lines.map Line.toJson)) := by
  refine .list fun element helement ↦ ?_
  obtain ⟨line, -, rfl⟩ := List.mem_map.mp helement
  exact tidy_line line

theorem tidy_speaker (speaker : Option Speaker) :
    Tidy (.union .speaker) (optionalSpeakerToJson speaker) := by
  match speaker with
  | none => exact .null _
  | some .variablyNamed => exact .unit _ _
  | some (.named nameLine) =>
    refine .payload fun record hrecord ↦ ?_
    obtain ⟨-, rfl⟩ := Prod.mk.inj (List.mem_singleton.mp hrecord)
    refine .record (fun _ _ ↦ length_fieldsOf_le_one (by simp)) fun name part value hpart hmem ↦ ?_
    obtain ⟨-, rfl⟩ := Prod.mk.inj (List.mem_singleton.mp hpart)
    obtain ⟨-, rfl⟩ := Prod.mk.inj (List.mem_singleton.mp hmem)
    exact tidy_line nameLine

theorem tidy_window (window : Window) : Tidy (.union .window) window.toJson := by
  cases window with
  | dialog window =>
    refine .payload fun record hrecord ↦ ?_
    obtain rfl : record = .dialog := by simpa [Union.cases] using hrecord
    refine .record (fun _ _ ↦ length_fieldsOf_le_one (by simp)) fun name part value hpart hmem ↦ ?_
    simp only [Record.parts, List.mem_cons, Prod.mk.injEq, List.not_mem_nil, or_false] at hpart
    rcases hpart with ⟨rfl, rfl⟩ | ⟨rfl, rfl⟩
    · obtain rfl : value = optionalSpeakerToJson window.speaker := by simpa using hmem
      exact tidy_speaker window.speaker
    · obtain rfl : value = .array (window.lines.map Line.toJson) := by simpa using hmem
      exact tidy_lines window.lines
  | selection window =>
    refine .payload fun record hrecord ↦ ?_
    obtain rfl : record = .selection := by simpa [Union.cases] using hrecord
    refine .record (fun _ _ ↦ length_fieldsOf_le_one (by simp)) fun name part value hpart hmem ↦ ?_
    obtain ⟨rfl, rfl⟩ := Prod.mk.inj (List.mem_singleton.mp hpart)
    obtain rfl : value = .array (window.lines.map Line.toJson) := by simpa using hmem
    exact tidy_lines window.lines

theorem tidy_script (script : Script) : Tidy (.record .script) script.toJson := by
  refine .record (fun _ _ ↦ length_fieldsOf_le_one (by simp)) fun name part value hpart hmem ↦ ?_
  obtain ⟨rfl, rfl⟩ := Prod.mk.inj (List.mem_singleton.mp hpart)
  obtain rfl : value = .array (script.windows.map Window.toJson) := by simpa using hmem
  refine .list fun element helement ↦ ?_
  obtain ⟨window, -, rfl⟩ := List.mem_map.mp helement
  exact tidy_window window

/-! ### Any number of changes -/

/-- Any number of changes to a part that keeps the invariant keep it, and the part is read alike. -/
theorem tidy_and_read_eq_of_edits {part : Part} {old new : Json} (h : Tidy part old)
    (hedits : Relation.ReflTransGen (Edit part) old new) :
    Tidy part new ∧ part.read new = part.read old := by
  induction hedits with
  | refl => exact ⟨h, rfl⟩
  | tail _ hedit ih => exact ⟨hedit.tidy ih.1, (hedit.read_eq ih.1).trans ih.2⟩

/-- A script is read back from what it is written as, and from all that any number of changes make
of it. -/
theorem ofJson?_of_edits (script : Script) :
    Script.ofJson? script.toJson = some script ∧
      ∀ json, Relation.ReflTransGen (Edit (.record .script)) script.toJson json →
        Script.ofJson? json = some script :=
  ⟨script.ofJson?_toJson, fun _ hedits ↦
    (tidy_and_read_eq_of_edits (tidy_script script) hedits).2.trans script.ofJson?_toJson⟩

/-- A dialog without a speaker and with a break in its one line, where the speaker is left out, the
break is an object, a field that means nothing is added and the windows stand in front of the format
version. -/
theorem ofJson?_of_edits_dialog :
    Relation.ReflTransGen (Edit (.record .script))
        (Script.toJson ⟨.v1, [.dialog ⟨"a", none, [⟨[.newLine]⟩]⟩]⟩)
        (.object [("windows", .array [.variant "dialog" (.object [("note", .bool true),
          ("identifier", .string "a"), ("lines", .array [.array [.variant "newLine" .null]])])]),
          ("format_version", .string "v1")]) ∧
      Script.ofJson? (.object [("windows", .array [.variant "dialog" (.object
          [("note", .bool true), ("identifier", .string "a"),
            ("lines", .array [.array [.variant "newLine" .null]])])]),
          ("format_version", .string "v1")]) =
        some ⟨.v1, [.dialog ⟨"a", none, [⟨[.newLine]⟩]⟩]⟩ := by
  have hspeaker : Edit (.record .dialog)
      (.object [("identifier", .string "a"), ("speaker", .null),
        ("lines", .array [.array [.string "newLine"]])])
      (.object [("identifier", .string "a"), ("lines", .array [.array [.string "newLine"]])]) :=
    @Edit.leaveOut .dialog ("speaker", .null) [("identifier", .string "a")] _
      List.mem_cons_self
  have hbreak : Edit (.record .dialog)
      (.object [("identifier", .string "a"), ("lines", .array [.array [.string "newLine"]])])
      (.object [("identifier", .string "a"),
        ("lines", .array [.array [.variant "newLine" .null]])]) :=
    @Edit.field .dialog "lines" (.list .lines) _ _ [("identifier", .string "a")] []
      (by simp [Record.parts])
      (@Edit.element .lines _ _ [] [] (@Edit.element .line _ _ [] [] (.unit List.mem_cons_self)))
  have hnote : Edit (.record .dialog)
      (.object [("identifier", .string "a"),
        ("lines", .array [.array [.variant "newLine" .null]])])
      (.object [("note", .bool true), ("identifier", .string "a"),
        ("lines", .array [.array [.variant "newLine" .null]])]) :=
    @Edit.add .dialog "note" (.bool true) [] _ (by decide)
  have hwindow : ∀ old new, Edit (.record .dialog) old new →
      Edit (.record .script)
        (.object [("format_version", .string "v1"), ("windows", .array [.variant "dialog" old])])
        (.object [("format_version", .string "v1"), ("windows", .array [.variant "dialog" new])]) :=
    fun _ _ h ↦ @Edit.field .script "windows" (.list .windows) _ _
      [("format_version", .string "v1")] [] List.mem_cons_self
      (@Edit.element .windows _ _ [] []
        (@Edit.payload .window "dialog" .dialog _ _ List.mem_cons_self h))
  have hedits := (((Relation.ReflTransGen.single hspeaker).tail hbreak).tail hnote).lift _ hwindow
  have hall := hedits.tail (.reorder (.swap _ _ []))
  exact ⟨hall, (ofJson?_of_edits _).2 _ hall⟩

end DialogueScript.JsonForm
