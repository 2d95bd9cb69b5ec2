import DialogueScript.Proofs.Compile.Defects
import DialogueScript.Proofs.Syntax.Formatting
import DialogueScript.Proofs.Syntax.Spans

/-!
# Slots of a tree

A `Slot` is a place in a tree that holds a part of some kind, and into which other parts of the kind
may be put. What the tree holds around the slot stays: its characters in front of the part and
behind it, and the complaints about what stands in front. The complaints about the part itself come
next. A tree shows the nodes of the part that it holds, and it stays valid if a valid part is put
into the slot.

Slots compose (`Slot.comp`), so that a slot for a tag in a text, one for a text in a window and one
for a window in a source make up a slot for the tag in the source. Every tag and every window that
the node of a source shows stands in a slot of the source (`holdsTag_of_rule`, `exists_slot_dialog`,
`exists_slot_selection`).
-/

set_option autoImplicit false
set_option relaxedAutoImplicit false

namespace DialogueScript.Syntax

open Node

/-- A kind of things that stand in a source: their characters, which of them are trees of the
grammar, their settled forms, which of them have a meaning, and at a place their nodes and what is
wrong with them. -/
structure Kind (α : Type) where
  text : α → List Char
  Spelled : α → Prop
  settle : α → α
  Valid : α → Prop
  nodes : α → Place → List Node
  complaints : α → Place → List Complaint

namespace Kind

/-- Tags. -/
def tag : Kind Tag :=
  ⟨Tag.text, Tag.Spelled, Tag.settle, fun tag ↦ tag.outline.Valid,
    fun tag place ↦ (tag.node place).preorder, fun tag place ↦ (tag.node place).tagComplaints⟩

/-- Texts with tags. -/
def tagged : Kind TaggedText :=
  ⟨TaggedText.text, TaggedText.Spelled, TaggedText.settle, fun items ↦ items.outline.Valid,
    fun items place ↦ (items.node place).preorder,
    fun items place ↦ (items.node place).textComplaints⟩

/-- Windows. -/
def window : Kind Window :=
  ⟨Window.text, Window.Spelled, Window.settle, fun window ↦ window.outline.Valid,
    fun window place ↦ (window.node place).preorder,
    fun window place ↦ (window.node place).children.flatMap windowComplaints⟩

/-- Whole sources, which stand at one place only. -/
def document : Kind Document :=
  ⟨Document.text, Document.Spelled, Document.settle, fun document ↦ document.outline.Valid,
    fun document _ ↦ document.node.preorder, fun document _ ↦ document.node.complaints⟩

end Kind

/-- A slot for parts of a kind in wholes of another, at a place of the whole. The characters `front`
and `behind` stand around the part. -/
structure Slot {α β : Type} (part : Kind α) (whole : Kind β) (place : Place) (put : α → β)
    (front behind : List Char) : Prop where
  text : ∀ a, whole.text (put a) = front ++ part.text a ++ behind
  spelled_part : ∀ a, whole.Spelled (put a) → part.Spelled a
  spelled : ∀ a b, whole.Spelled (put a) → part.Spelled b → whole.Spelled (put b)
  settle_part : ∀ a, whole.settle (put a) = put a → part.settle a = a
  settle : ∀ a b, whole.settle (put a) = put a → part.settle b = b →
    whole.settle (put b) = put b
  valid_part : ∀ a, whole.Valid (put a) → part.Valid a
  valid : ∀ a b, whole.Valid (put a) → part.Valid b → whole.Valid (put b)
  nodes : ∀ a, part.nodes a (place.after front) ⊆ whole.nodes (put a) place
  complaints : ∃ before, ∀ a, ∃ later,
    whole.complaints (put a) place = before ++ part.complaints a (place.after front) ++ later

/-- A slot in a slot is a slot. -/
theorem Slot.comp {α β γ : Type} {part : Kind α} {middle : Kind β} {whole : Kind γ} {place : Place}
    {put : β → γ} {putPart : α → β} {front behind inFront inBehind : List Char}
    (houter : Slot middle whole place put front behind)
    (hinner : Slot part middle (place.after front) putPart inFront inBehind) :
    Slot part whole place (put ∘ putPart) (front ++ inFront) (inBehind ++ behind) := by
  refine ⟨fun a ↦ ?_, fun a h ↦ ?_, fun a b h hb ↦ ?_, fun a h ↦ ?_, fun a b h hb ↦ ?_,
    fun a h ↦ ?_, fun a b h hb ↦ ?_, fun a ↦ ?_, ?_⟩
  · rw [Function.comp_apply, houter.text, hinner.text]
    simp only [List.append_assoc]
  · exact hinner.spelled_part a (houter.spelled_part _ h)
  · have hmiddle := hinner.spelled a b (houter.spelled_part _ h) hb
    exact houter.spelled _ _ h hmiddle
  · exact hinner.settle_part a (houter.settle_part _ h)
  · have hmiddle := hinner.settle a b (houter.settle_part _ h) hb
    exact houter.settle _ _ h hmiddle
  · exact hinner.valid_part a (houter.valid_part _ h)
  · have hmiddle := hinner.valid a b (houter.valid_part _ h) hb
    exact houter.valid _ _ h hmiddle
  · rw [Place.after_append]
    exact List.Subset.trans (hinner.nodes a) (houter.nodes (putPart a))
  · obtain ⟨before, houterComplaints⟩ := houter.complaints
    obtain ⟨inBefore, hinnerComplaints⟩ := hinner.complaints
    refine ⟨before ++ inBefore, fun a ↦ ?_⟩
    obtain ⟨inLater, hpart⟩ := hinnerComplaints a
    obtain ⟨later, hwhole⟩ := houterComplaints (putPart a)
    refine ⟨inLater ++ later, ?_⟩
    rw [Function.comp_apply, hwhole, hpart, Place.after_append]
    simp only [List.append_assoc]

/-! ### Slots of lists -/

/-- A map that leaves a list as it is leaves its parts as they are. -/
theorem map_append_cons_eq_iff {α : Type} {f : α → α} {before after : List α} {a : α} :
    (before ++ a :: after).map f = before ++ a :: after ↔
      before.map f = before ∧ f a = a ∧ after.map f = after := by
  rw [List.map_append, List.map_cons]
  constructor
  · intro h
    obtain ⟨hbefore, hcons⟩ := List.append_inj h (List.length_map f)
    exact ⟨hbefore, List.cons.inj hcons⟩
  · rintro ⟨hbefore, ha, hafter⟩
    rw [hbefore, ha, hafter]

theorem textComplaints_append (before after : TaggedText) (place : Place) :
    (TaggedText.node (before ++ after) place).textComplaints =
      (before.node place).textComplaints ++
        (after.node (place.after before.text)).textComplaints := by
  simp only [textComplaints, childrenOf, TaggedText.node, locate_append, List.map_append,
    List.filter_append, List.flatMap_append]
  rfl

/-- The tags of a text are valid if one of them is and those around it are. -/
theorem valid_text_iff {before after : TaggedText} {tag : Tag} :
    (TaggedText.outline (before ++ .tag tag :: after)).Valid ↔
      before.outline.Valid ∧ tag.outline.Valid ∧ (TaggedText.outline after).Valid := by
  simp only [TaggedText.outline, List.map_append, List.map_cons, Outline.Text.Valid,
    List.mem_append, List.mem_cons, Item.outline, Outline.Item.tag.injEq]
  constructor
  · intro h
    exact ⟨fun t ht ↦ h t (.inl ht), h _ (.inr (.inl rfl)), fun t ht ↦ h t (.inr (.inr ht))⟩
  · rintro ⟨hbefore, htag, hafter⟩ t (ht | rfl | ht)
    · exact hbefore t ht
    · exact htag
    · exact hafter t ht

theorem mem_preorder_self (node : Node) : node ∈ node.preorder := by
  rw [preorder_eq]
  exact List.mem_cons_self

/-- The nodes of a part are nodes of the whole. -/
theorem preorder_subset_of_mem_children {node child : Node} (h : child ∈ node.children) :
    child.preorder ⊆ node.preorder := by
  intro found hfound
  rw [preorder_eq]
  exact List.mem_cons_of_mem node (List.mem_flatMap_of_mem h hfound)

theorem mem_locate {α : Type} (text : α → List Char) (place : Place) (before after : List α)
    (a : α) :
    ⟨place.after (before.flatMap text), a⟩ ∈ locate text place (before ++ a :: after) := by
  rw [locate_append]
  exact List.mem_append_right _ List.mem_cons_self

/-- A tag stands in a text. -/
theorem slot_tag (before after : TaggedText) (place : Place) :
    Slot Kind.tag Kind.tagged place (fun tag ↦ before ++ .tag tag :: after) before.text
      (TaggedText.text after) := by
  refine ⟨fun tag ↦ ?_, fun tag h ↦ ?_, fun tag other h hother ↦ ?_, fun tag h ↦ ?_,
    fun tag other h hother ↦ ?_, fun tag h ↦ ?_, fun tag other h hother ↦ ?_, fun tag ↦ ?_,
    ⟨(before.node place).textComplaints, fun tag ↦ ?_⟩⟩
  · simp [Kind.tagged, Kind.tag, TaggedText.text, Item.text]
  · have hmem : Item.tag tag ∈ before ++ .tag tag :: after := by simp
    exact spelled_of_mem h hmem
  · have hitem : Item.Spelled (.tag other) := hother
    exact spelled_replace h hitem Iff.rfl
  · obtain ⟨-, htag, -⟩ := map_append_cons_eq_iff.mp h
    exact Item.tag.inj htag
  · obtain ⟨hbefore, -, hafter⟩ := map_append_cons_eq_iff.mp h
    exact map_append_cons_eq_iff.mpr ⟨hbefore, congrArg Item.tag hother, hafter⟩
  · exact (valid_text_iff.mp h).2.1
  · obtain ⟨hbefore, -, hafter⟩ := valid_text_iff.mp h
    exact valid_text_iff.mpr ⟨hbefore, hother, hafter⟩
  · exact preorder_subset_of_mem_children
      (List.mem_map_of_mem (mem_locate Item.text place before after (.tag tag)))
  · refine ⟨(TaggedText.node after ((place.after before.text).after tag.text)).textComplaints, ?_⟩
    change (TaggedText.node (before ++ .tag tag :: after) place).textComplaints = _
    rw [textComplaints_append, textComplaints_tag, ← List.append_assoc]
    rfl

/-! ### Slots of windows -/

/-- What is wrong with a window that lacks its identifier. -/
def labelComplaints (label : Option Label) (message : String) (place : Place) : List Complaint :=
  if label.isSome then [] else [⟨message, place.position⟩]

theorem complaints_dialog (window : Dialog) (place : Place) :
    Kind.window.complaints (.dialog window) place =
      labelComplaints window.label "Expected dialog window name" place ++
        ((window.speaker.toList.map fun name ↦
          name.node (speakerTextPlace (window.speakerPlace place))).flatMap textComplaints ++
            (window.body.node (window.bodyPlace place)).textComplaints) := by
  rw [labelComplaints, ← windowComplaints_dialog]
  exact List.append_nil _

theorem complaints_selection (window : Selection) (place : Place) :
    Kind.window.complaints (.selection window) place =
      labelComplaints window.label "Expected selection window name" place ++
        (window.body.node (window.bodyPlace place)).textComplaints := by
  rw [labelComplaints, ← windowComplaints_selection]
  exact List.append_nil _

/-- A dialog window has its spacing settled exactly if its texts have, and if no spacing stands
behind the place of an absent speaker. -/
theorem settle_dialog_iff {window : Dialog} :
    (Window.dialog window).settle = .dialog window ↔
      (∀ name ∈ window.speaker, TaggedText.settle name = name) ∧
        (window.speaker = none → window.tail = []) ∧ window.body.settle = window.body := by
  obtain ⟨lead, keyword, label, gap, speaker, tail, body⟩ := window
  cases speaker with
  | none => simp [Window.settle, Dialog.settle, eq_comm]
  | some name => simp [Window.settle, Dialog.settle]

/-- A text stands in the brackets of a speaker name. -/
theorem slot_speaker (window : Dialog) (place : Place) :
    Slot Kind.tagged Kind.window place (fun name ↦ .dialog { window with speaker := some name })
      (window.beforeSpeaker ++ ['[']) ([']'] ++ window.tail ++ [']'] ++ window.body.text) := by
  refine ⟨fun name ↦ ?_, fun name h ↦ ?_, fun name other h hother ↦ ?_, fun name h ↦ ?_,
    fun name other h hother ↦ ?_, fun name h ↦ ?_, fun name other h hother ↦ ?_, fun name ↦ ?_, ?_⟩
  · simp [Kind.window, Kind.tagged, Window.text, Dialog.text, Dialog.header, Dialog.beforeSpeaker,
      Dialog.beforeLabel, speakerText]
  · obtain ⟨hspaced, -, hname, -⟩ := h
    exact ⟨hspaced.speaker name rfl, hname _ rfl⟩
  · obtain ⟨⟨hlead, hkeyword, hlabel, hgap, -, htail, hbody⟩, hidentifier, -, hwell⟩ := h
    refine ⟨⟨hlead, hkeyword, hlabel, hgap, ?_, htail, hbody⟩, hidentifier, ?_, hwell⟩
    · rintro _ ⟨⟩
      exact hother.1
    · rintro _ ⟨⟩
      exact hother.2
  · exact (settle_dialog_iff.mp h).1 name rfl
  · have hpresent : some other = none → window.tail = [] := fun hnone ↦
      absurd hnone (Option.some_ne_none other)
    refine settle_dialog_iff.mpr ⟨?_, hpresent, (settle_dialog_iff.mp h).2.2⟩
    rintro _ ⟨⟩
    exact hother
  · exact h.2.1 _ rfl
  · obtain ⟨hlabel, -, hbody⟩ := h
    refine ⟨hlabel, ?_, hbody⟩
    rintro _ ⟨⟩
    exact hother
  · rw [Place.after_append]
    let dialog : Dialog := { window with speaker := some name }
    have hspeaker : speakerNode name (window.speakerPlace place) ∈ (dialog.node place).children :=
      List.mem_append_left _ (List.mem_append_right _ List.mem_cons_self)
    have hdialog : dialog.node place ∈ ((Window.dialog dialog).node place).children :=
      List.mem_cons_self
    exact List.Subset.trans (preorder_subset_of_mem_children List.mem_cons_self)
      (List.Subset.trans (preorder_subset_of_mem_children hspeaker)
        (preorder_subset_of_mem_children hdialog))
  · refine ⟨labelComplaints window.label "Expected dialog window name" place, fun name ↦ ?_⟩
    have hname : (Option.toList (some name)).flatMap (fun name ↦ (TaggedText.node name
        (speakerTextPlace (window.speakerPlace place))).textComplaints) =
          (name.node (place.after (window.beforeSpeaker ++ ['[']))).textComplaints := by
      rw [Place.after_append]
      exact List.append_nil _
    refine ⟨(window.body.node (Dialog.bodyPlace { window with speaker := some name }
      place)).textComplaints, ?_⟩
    rw [complaints_dialog, List.append_assoc, List.flatMap_map]
    exact congrArg (_ ++ ·) (congrArg (· ++ _) hname)

/-- A text stands in a dialog window. -/
theorem slot_dialogBody (window : Dialog) (place : Place) :
    Slot Kind.tagged Kind.window place (fun body ↦ .dialog { window with body }) window.header
      [] := by
  refine ⟨fun body ↦ ?_, fun body h ↦ ?_, fun body other h hother ↦ ?_, fun body h ↦ ?_,
    fun body other h hother ↦ ?_, fun body h ↦ ?_, fun body other h hother ↦ ?_, fun body ↦ ?_, ?_⟩
  · exact (List.append_nil _).symm
  · obtain ⟨hspaced, -, -, hwell⟩ := h
    exact ⟨hspaced.body, hwell⟩
  · obtain ⟨⟨hlead, hkeyword, hlabel, hgap, hspeaker, htail, -⟩, hidentifier, hname, -⟩ := h
    exact ⟨⟨hlead, hkeyword, hlabel, hgap, hspeaker, htail, hother.1⟩, hidentifier, hname,
      hother.2⟩
  · exact (settle_dialog_iff.mp h).2.2
  · obtain ⟨hname, htail, -⟩ := settle_dialog_iff.mp h
    exact settle_dialog_iff.mpr ⟨hname, htail, hother⟩
  · exact h.2.2
  · exact ⟨h.1, h.2.1, hother⟩
  · let dialog : Dialog := { window with body }
    have hbody : body.node (place.after window.header) ∈ (dialog.node place).children :=
      List.mem_append_right _ List.mem_cons_self
    have hdialog : dialog.node place ∈ ((Window.dialog dialog).node place).children :=
      List.mem_cons_self
    exact List.Subset.trans (preorder_subset_of_mem_children hbody)
      (preorder_subset_of_mem_children hdialog)
  · refine ⟨labelComplaints window.label "Expected dialog window name" place ++
      (window.speaker.toList.map fun name ↦
        name.node (speakerTextPlace (window.speakerPlace place))).flatMap textComplaints,
      fun body ↦ ⟨[], ?_⟩⟩
    rw [complaints_dialog, List.append_nil, List.append_assoc]
    rfl

/-- A text stands in a selection window. -/
theorem slot_selectionBody (window : Selection) (place : Place) :
    Slot Kind.tagged Kind.window place (fun body ↦ .selection { window with body }) window.header
      [] := by
  refine ⟨fun body ↦ ?_, fun body h ↦ ?_, fun body other h hother ↦ ?_, fun body h ↦ ?_,
    fun body other h hother ↦ ?_, fun body h ↦ ?_, fun body other h hother ↦ ?_, fun body ↦ ?_, ?_⟩
  · exact (List.append_nil _).symm
  · obtain ⟨hspaced, -, hwell⟩ := h
    exact ⟨hspaced.body, hwell⟩
  · obtain ⟨⟨hlead, hkeyword, hlabel, htail, -⟩, hidentifier, -⟩ := h
    exact ⟨⟨hlead, hkeyword, hlabel, htail, hother.1⟩, hidentifier, hother.2⟩
  · exact congrArg Selection.body (Window.selection.inj h)
  · change Window.selection { window with body := TaggedText.settle other } = _
    rw [show TaggedText.settle other = other from hother]
  · exact h.2
  · exact ⟨h.1, hother⟩
  · let selection : Selection := { window with body }
    have hbody : body.node (place.after window.header) ∈ (selection.node place).children :=
      List.mem_append_right _ List.mem_cons_self
    have hselection : selection.node place ∈ ((Window.selection selection).node place).children :=
      List.mem_cons_self
    exact List.Subset.trans (preorder_subset_of_mem_children hbody)
      (preorder_subset_of_mem_children hselection)
  · refine ⟨labelComplaints window.label "Expected selection window name" place,
      fun body ↦ ⟨[], ?_⟩⟩
    rw [complaints_selection, List.append_nil]
    rfl

/-! ### Slots of sources -/

/-- What is wrong with a source that has windows is what is wrong with them. -/
theorem complaints_document {document : Document} (hne : document.windows ≠ []) :
    document.node.complaints =
      (locate Window.text document.windowsPlace document.windows).flatMap fun window ↦
        Kind.window.complaints window.value window.place := by
  unfold Node.complaints
  rw [childrenOf_messageWindow_document]
  obtain ⟨window, rest, hcons⟩ := List.exists_cons_of_ne_nil hne
  rw [hcons]
  exact List.flatMap_map (fun window : Located Window ↦ window.value.node window.place) _ _

/-- The windows of a source are valid if one of them is and those around it are. -/
theorem valid_document_iff {blanks : List Char} {before after : List Window} {window : Window} :
    (Document.outline ⟨blanks, before ++ window :: after⟩).Valid ↔
      (∀ w ∈ before, w.outline.Valid) ∧ window.outline.Valid ∧ ∀ w ∈ after, w.outline.Valid := by
  simp [Document.outline, Outline.Valid, or_imp, forall_and]

/-- A window stands in a source. -/
theorem slot_window (blanks : List Char) (before after : List Window) :
    Slot Kind.window Kind.document Place.start
      (fun window ↦ ⟨blanks, before ++ window :: after⟩) (blanks ++ before.flatMap Window.text)
      (after.flatMap Window.text) := by
  refine ⟨fun window ↦ ?_, fun window h ↦ ?_, fun window other h hother ↦ ?_, fun window h ↦ ?_,
    fun window other h hother ↦ ?_, fun window h ↦ ?_, fun window other h hother ↦ ?_,
    fun window ↦ ?_, ?_⟩
  · simp [Kind.document, Kind.window, Document.text]
  · exact (spelled_document_iff.mp h).2 window (by simp)
  · obtain ⟨hblanks, hwindows⟩ := spelled_document_iff.mp h
    obtain ⟨hbefore, hrest⟩ := List.forall_mem_append.mp hwindows
    obtain ⟨-, hafter⟩ := List.forall_mem_cons.mp hrest
    exact spelled_document_iff.mpr ⟨hblanks,
      List.forall_mem_append.mpr ⟨hbefore, List.forall_mem_cons.mpr ⟨hother, hafter⟩⟩⟩
  · have hwindows := congrArg Document.windows h
    exact (map_append_cons_eq_iff.mp hwindows).2.1
  · have hwindows := congrArg Document.windows h
    obtain ⟨hbefore, -, hafter⟩ := map_append_cons_eq_iff.mp hwindows
    exact congrArg (Document.mk blanks) (map_append_cons_eq_iff.mpr ⟨hbefore, hother, hafter⟩)
  · exact (valid_document_iff.mp h).2.1
  · obtain ⟨hbefore, -, hafter⟩ := valid_document_iff.mp h
    exact valid_document_iff.mpr ⟨hbefore, hother, hafter⟩
  · have hmem := mem_locate Window.text (Place.start.after blanks) before after window
    rw [← Place.after_append] at hmem
    exact preorder_subset_of_mem_children
      (List.mem_append_left _ (List.mem_map_of_mem hmem))
  · refine ⟨(locate Window.text (Place.start.after blanks) before).flatMap fun window ↦
      Kind.window.complaints window.value window.place, fun window ↦ ⟨(locate Window.text
        ((Place.start.after (blanks ++ before.flatMap Window.text)).after window.text)
          after).flatMap fun window ↦ Kind.window.complaints window.value window.place, ?_⟩⟩
    change (Document.node ⟨blanks, before ++ window :: after⟩).complaints = _
    rw [complaints_document (by simp), locate_append, List.flatMap_append, Document.windowsPlace,
      ← Place.after_append, locate, List.flatMap_cons, List.append_assoc]

/-! ### The slots of nodes -/

/-- A whole at a place holds the tag of a node in a slot. -/
def HoldsTag {β : Type} (kind : Kind β) (whole : β) (place : Place) (node : Node) : Prop :=
  ∃ put front behind tag, Slot Kind.tag kind place put front behind ∧ put tag = whole ∧
    node = tag.node (place.after front)

/-- Assumes: a part that stands in a slot holds a tag. The whole holds it. -/
theorem HoldsTag.of_slot {α β : Type} {part : Kind α} {whole : Kind β} {place : Place}
    {put : α → β} {front behind : List Char} {a : α} {b : β} {node : Node}
    (hslot : Slot part whole place put front behind) (hput : put a = b)
    (h : HoldsTag part a (place.after front) node) : HoldsTag whole b place node := by
  obtain ⟨inner, inFront, inBehind, tag, hinner, rfl, rfl⟩ := h
  exact ⟨put ∘ inner, _, _, tag, hslot.comp hinner, hput, by rw [Place.after_append]⟩

/-- The rule of a node that may have a word as its name: an id or an identifier. -/
def Rule.isNamed : Rule → Bool
  | .tag => true
  | .dialogWindow => true
  | .selectionWindow => true
  | _ => false

/-- Below words there is nothing that may have a name. -/
theorem isNamed_of_words {nodes : List Node}
    (h : ∀ node ∈ nodes, node.rule.isNamed = false ∧ node.children = []) :
    ∀ node ∈ nodes.flatMap preorder, node.rule.isNamed = false := by
  intro node hnode
  obtain ⟨word, hword, hmem⟩ := List.mem_flatMap.mp hnode
  obtain ⟨hrule, hchildren⟩ := h word hword
  rw [preorder_eq, hchildren] at hmem
  obtain rfl := List.mem_singleton.mp hmem
  exact hrule

theorem isNamed_below_tag (tag : Tag) (place : Place) :
    ∀ node ∈ (tag.node place).children.flatMap preorder, node.rule.isNamed = false := by
  refine isNamed_of_words fun node hnode ↦ ?_
  rcases List.mem_append.mp hnode with hid | hliteral
  · obtain ⟨word, -, rfl⟩ := List.mem_map.mp hid
    exact ⟨rfl, rfl⟩
  · obtain ⟨literal, -, rfl⟩ := List.mem_map.mp hliteral
    exact ⟨rfl, rfl⟩

/-- In a text only tags may have names, and each stands in a slot. -/
theorem holdsTag_text {items : TaggedText} {place : Place} {node : Node}
    (h : node ∈ (items.node place).preorder) (hnamed : node.rule.isNamed = true) :
    HoldsTag Kind.tagged items place node := by
  rw [preorder_eq] at h
  rcases List.mem_cons.mp h with rfl | hbelow
  · exact absurd hnamed nofun
  · obtain ⟨child, hchild, hmem⟩ := List.mem_flatMap.mp hbelow
    obtain ⟨⟨start, item⟩, hlocated, rfl⟩ := List.mem_map.mp hchild
    obtain ⟨before, after, rfl, rfl⟩ := exists_of_mem_locate hlocated
    rw [preorder_eq] at hmem
    cases item with
    | run run =>
      obtain rfl := List.mem_singleton.mp hmem
      exact absurd hnamed nofun
    | tag tag =>
      rcases List.mem_cons.mp hmem with rfl | hword
      · exact ⟨_, _, _, tag, slot_tag before after place, rfl, rfl⟩
      · exact absurd hnamed (Bool.eq_false_iff.mp (isNamed_below_tag tag _ node hword))

/-- A speaker name and what is below it: only the tags of the text may have names. -/
theorem holdsTag_speaker {name : TaggedText} {place : Place} {node : Node}
    (h : node ∈ (speakerNode name place).preorder) (hnamed : node.rule.isNamed = true) :
    HoldsTag Kind.tagged name (speakerTextPlace place) node := by
  rw [preorder_eq] at h
  rcases List.mem_cons.mp h with rfl | hbelow
  · exact absurd hnamed nofun
  · have htext : node ∈ (name.node (speakerTextPlace place)).preorder ++ [] := hbelow
    rw [List.append_nil] at htext
    exact holdsTag_text htext hnamed

theorem isNamed_below_label (label : Option Label) (place : Place) :
    ∀ node ∈ (label.toList.map (·.node place)).flatMap preorder, node.rule.isNamed = false := by
  refine isNamed_of_words fun node hnode ↦ ?_
  obtain ⟨word, -, rfl⟩ := List.mem_map.mp hnode
  exact ⟨rfl, rfl⟩

theorem holdsTag_dialog {window : Dialog} {place : Place} {node : Node}
    (h : node ∈ (window.node place).children.flatMap preorder)
    (hnamed : node.rule.isNamed = true) :
    HoldsTag Kind.window (.dialog window) place node := by
  change node ∈ (_ ++ _ ++ [_]).flatMap preorder at h
  rw [List.flatMap_append, List.flatMap_append, List.mem_append, List.mem_append] at h
  rcases h with (hlabel | hspeaker) | hbody
  · exact absurd hnamed (Bool.eq_false_iff.mp (isNamed_below_label _ _ node hlabel))
  · obtain ⟨lead, keyword, label, gap, speaker, tail, body⟩ := window
    obtain ⟨_, hname, hmem⟩ := List.mem_flatMap.mp hspeaker
    obtain ⟨name, hsome, rfl⟩ := List.mem_map.mp hname
    obtain rfl := Option.mem_toList.mp hsome
    have hslot := slot_speaker ⟨lead, keyword, label, gap, some name, tail, body⟩ place
    have hholds := holdsTag_speaker hmem hnamed
    rw [speakerTextPlace, Dialog.speakerPlace, ← Place.after_append] at hholds
    exact HoldsTag.of_slot hslot rfl hholds
  · rw [List.flatMap_singleton] at hbody
    exact HoldsTag.of_slot (slot_dialogBody window place) rfl (holdsTag_text hbody hnamed)

theorem holdsTag_selection {window : Selection} {place : Place} {node : Node}
    (h : node ∈ (window.node place).children.flatMap preorder)
    (hnamed : node.rule.isNamed = true) :
    HoldsTag Kind.window (.selection window) place node := by
  change node ∈ (_ ++ [_]).flatMap preorder at h
  rw [List.flatMap_append, List.mem_append] at h
  rcases h with hlabel | hbody
  · exact absurd hnamed (Bool.eq_false_iff.mp (isNamed_below_label _ _ node hlabel))
  · rw [List.flatMap_singleton] at hbody
    exact HoldsTag.of_slot (slot_selectionBody window place) rfl
      (holdsTag_text hbody hnamed)

/-- What may have a name in a window is the node of its kind or a tag in a slot. -/
theorem holdsTag_window {window : Window} {place : Place} {node : Node}
    (h : node ∈ (window.node place).preorder) (hnamed : node.rule.isNamed = true) :
    node ∈ (window.node place).children ∨ HoldsTag Kind.window window place node := by
  rw [preorder_eq] at h
  rcases List.mem_cons.mp h with rfl | hbelow
  · exact absurd hnamed nofun
  · cases window with
    | dialog w =>
      have hinner : node ∈ (w.node place).preorder ++ [] := hbelow
      rw [List.append_nil, preorder_eq] at hinner
      rcases List.mem_cons.mp hinner with rfl | hdeeper
      · exact Or.inl List.mem_cons_self
      · exact Or.inr (holdsTag_dialog hdeeper hnamed)
    | selection w =>
      have hinner : node ∈ (w.node place).preorder ++ [] := hbelow
      rw [List.append_nil, preorder_eq] at hinner
      rcases List.mem_cons.mp hinner with rfl | hdeeper
      · exact Or.inl List.mem_cons_self
      · exact Or.inr (holdsTag_selection hdeeper hnamed)

/-- What may have a name in a source is the node of a window in a slot or a tag in a slot. -/
theorem holds_document {document : Document} {node : Node} (h : node ∈ document.node.preorder)
    (hnamed : node.rule.isNamed = true) :
    (∃ blanks before window after, document = ⟨blanks, before ++ window :: after⟩ ∧
      node ∈ (window.node (Place.start.after (blanks ++ before.flatMap Window.text))).children) ∨
      HoldsTag Kind.document document Place.start node := by
  rw [preorder_eq] at h
  rcases List.mem_cons.mp h with rfl | hbelow
  · exact absurd hnamed nofun
  · obtain ⟨child, hchild, hmem⟩ := List.mem_flatMap.mp hbelow
    rcases List.mem_append.mp hchild with hwindow | hend
    · obtain ⟨⟨start, window⟩, hlocated, rfl⟩ := List.mem_map.mp hwindow
      obtain ⟨before, after, hsplit, hplace⟩ := exists_of_mem_locate hlocated
      obtain ⟨blanks, windows⟩ := document
      dsimp only at hsplit hplace hmem
      subst hsplit
      rw [Document.windowsPlace, ← Place.after_append] at hplace
      subst hplace
      rcases holdsTag_window hmem hnamed with hinner | htag
      · exact Or.inl ⟨blanks, before, window, after, rfl, hinner⟩
      · exact Or.inr (HoldsTag.of_slot (slot_window blanks before after) rfl htag)
    · obtain rfl := List.mem_singleton.mp hend
      rw [preorder_eq] at hmem
      obtain rfl := List.mem_singleton.mp hmem
      exact absurd hnamed nofun

/-- Every tag of a source stands in a slot. -/
theorem holdsTag_of_rule {document : Document} {node : Node} (h : node ∈ document.node.preorder)
    (hrule : node.rule = .tag) : HoldsTag Kind.document document Place.start node := by
  have hdialog : Rule.dialogWindow ≠ .tag := by decide
  have hselection : Rule.selectionWindow ≠ .tag := by decide
  rcases holds_document h (by rw [hrule]; rfl) with ⟨_, _, window, _, -, hmem⟩ | hholds
  · cases window with
    | dialog w =>
      obtain rfl := List.mem_singleton.mp hmem
      exact absurd hrule hdialog
    | selection w =>
      obtain rfl := List.mem_singleton.mp hmem
      exact absurd hrule hselection
  · exact hholds

/-- Every dialog window of a source stands in a slot. -/
theorem exists_slot_dialog {document : Document} {node : Node} (h : node ∈ document.node.preorder)
    (hrule : node.rule = .dialogWindow) :
    ∃ put front behind window, Slot Kind.window Kind.document Place.start put front behind ∧
      put (.dialog window) = document ∧ node = window.node (Place.start.after front) := by
  have hselection : Rule.selectionWindow ≠ .dialogWindow := by decide
  have htag : Rule.tag ≠ .dialogWindow := by decide
  rcases holds_document h (by rw [hrule]; rfl) with
    ⟨blanks, before, window, after, rfl, hmem⟩ | ⟨_, _, _, _, -, -, rfl⟩
  · cases window with
    | dialog w =>
      exact ⟨_, _, _, w, slot_window blanks before after, rfl, List.mem_singleton.mp hmem⟩
    | selection w =>
      obtain rfl := List.mem_singleton.mp hmem
      exact absurd hrule hselection
  · exact absurd hrule htag

/-- Every selection window of a source stands in a slot. -/
theorem exists_slot_selection {document : Document} {node : Node}
    (h : node ∈ document.node.preorder) (hrule : node.rule = .selectionWindow) :
    ∃ put front behind window, Slot Kind.window Kind.document Place.start put front behind ∧
      put (.selection window) = document ∧ node = window.node (Place.start.after front) := by
  have hdialog : Rule.dialogWindow ≠ .selectionWindow := by decide
  have htag : Rule.tag ≠ .selectionWindow := by decide
  rcases holds_document h (by rw [hrule]; rfl) with
    ⟨blanks, before, window, after, rfl, hmem⟩ | ⟨_, _, _, _, -, -, rfl⟩
  · cases window with
    | dialog w =>
      obtain rfl := List.mem_singleton.mp hmem
      exact absurd hrule hdialog
    | selection w =>
      exact ⟨_, _, _, w, slot_window blanks before after, rfl, List.mem_singleton.mp hmem⟩
  · exact absurd hrule htag

end DialogueScript.Syntax
