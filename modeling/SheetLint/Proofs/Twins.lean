import SheetLint.Proofs.Jobs

/-!
# Nodes at the same spot

Two runs come to the same spots of a document, in stores of their own. What a plain action can see
of the nodes there is the same in both: their location, their fields, their kind, the kind of their
parent, and which of them are equal. Of variables that are made on the way not even the place is the
same, but these are compared by their names.
-/

namespace SheetLint

namespace Store

variable {s : Store} {root n : NodeId} {p : Position} {name : String} {v w : Value}

/-! ## What a node shows -/

/-- A location that a node ends up with was there in parts. -/
theorem Final.held (hs : s.Closed) (h : s.Final root n p) :
    s.Holds p.line ∧ s.Holds p.column ∧ s.Holds p.file := by
  induction h with
  | root => exact hs.position _
  | own _ _ _ _ => exact hs.position _
  | @filled n c p _ _ _ ih =>
    obtain ⟨hline, hcolumn, hfile⟩ := hs.position c
    unfold Position.completed
    split
    · refine ⟨ih.1, ?_, ?_⟩
      · show s.Holds (if _ then _ else _)
        split
        · exact ih.2.1
        · exact hcolumn
      · show s.Holds (if _ then _ else _)
        split
        · exact ih.2.2
        · exact hfile
    · exact ⟨hline, hcolumn, hfile⟩

theorem mem_of_lookup {es : List (String × Value)} (h : es.lookup name = some v) :
    v ∈ es.map (·.2) := by
  obtain ⟨before, after, rfl, _⟩ := List.lookup_eq_some_iff.mp h
  simp

/-- What the class of a node says names nothing in the store. -/
theorem nodeMember_cells {c : NodeClass} (h : Members.node? c name = some v) : v.cells = [] := by
  unfold Members.node? at h
  split at h
  · cases h
    rfl
  · cases h
    rfl
  · cases h
    rfl
  · split at h
    · cases h
      rfl
    · simp at h
  · cases h
    split <;> rfl
  · cases h
    split <;> rfl
  · split at h
    · cases h
      rfl
    · exact Linter.common?_cells h

/-- What is found under a name at a node is one of its fields or its notes, or refers to nothing. -/
theorem orMissing_node_cases {x : Node} (h : s.orMissing v name
      ((x.fields.lookup name <|> x.notes.lookup name) <|> Members.node? x.nodeClass name) = .ok w) :
    w ∈ x.fields.map (·.2) ∨ w ∈ x.notes.map (·.2) ∨ w.cells = [] := by
  have hfound := toOption_orMissing s v name
    ((x.fields.lookup name <|> x.notes.lookup name) <|> Members.node? x.nodeClass name)
  rw [h] at hfound
  have hown := (Option.filter_eq_some_iff.mp hfound.symm).1
  cases hf : x.fields.lookup name with
  | some y =>
    rw [hf] at hown
    cases hown
    exact Or.inl (mem_of_lookup hf)
  | none =>
    cases hn : x.notes.lookup name with
    | some y =>
      rw [hf, hn] at hown
      cases hown
      exact Or.inr (Or.inl (mem_of_lookup hn))
    | none =>
      rw [hf, hn] at hown
      exact Or.inr (Or.inr (nodeMember_cells hown))

/-- What a node shows, parents apart, is one of its fields or notes, or names nothing. -/
theorem getAttribute_node_cases (hname : name ∉ parentNames)
    (h : s.getAttribute (.node n) name = .ok v) :
    v ∈ (s.node n).fields.map (·.2) ∨ v ∈ (s.node n).notes.map (·.2) ∨ v.cells = [] := by
  simp only [parentNames, List.mem_cons, List.not_mem_nil, or_false, not_or] at hname
  have hmark : ∀ {found : Option Value} {own : Value}, own.cells = [] →
      (∀ w, found = some w → w ∈ (s.node n).notes.map (·.2)) →
        found.getD own ∈ (s.node n).notes.map (·.2) ∨ (found.getD own).cells = [] := by
    intro found own hown hfound
    cases found with
    | none => exact Or.inr hown
    | some w => exact Or.inl (hfound w rfl)
  rw [show s.getAttribute (.node n) name = s.nodeAttribute _ n name from rfl] at h
  unfold nodeAttribute at h
  simp only at h
  split at h
  · exact absurd rfl hname.1
  · unfold underscored at h
    split at h
    · cases h
      exact Or.inr (Or.inr rfl)
    · simp at h
  · cases h
    exact Or.inr (hmark rfl fun w hw => mem_of_lookup hw)
  · cases h
    exact Or.inr (hmark rfl fun w hw => mem_of_lookup hw)
  · exact absurd rfl hname.2.1
  · exact absurd rfl hname.2.2
  · cases h
    exact Or.inr (Or.inr rfl)
  · exact orMissing_node_cases h

theorem getAttribute_parent {found : Option Value} (h : s.parent? n = .ok found) :
    s.getAttribute (.node n) "parent" = .ok (found.getD .null) := by
  simp [getAttribute, attributeAlong, nodeAttribute, h, Except.map]

theorem kindOf_word (hs : s.hasBacked = false) {word : String}
    (h : (s.node n).kind = .text word) : s.kindOf (.node n) = .ok word := by
  unfold kindOf
  rw [getAttribute_kind, h]
  exact tryBare_of_unbacked hs (.text word)

end Store

namespace Job

open Store

variable {J : Job} {s t : Store} {n m : NodeId} {spot : Spot} {name : String}

/-! ## What a node that has arrived shows -/

namespace Working

variable (h : J.Working s)
include h

theorem unbacked : s.hasBacked = false := by
  rw [h.settling.follows.backed]
  exact J.sound.unbacked

/-- The fields and notes of a node that has arrived were there from the start. -/
theorem own_held (hn : J.start.Standing J.root s n spot) :
    (∀ v ∈ (s.node n).form.fields, J.start.Holds v) ∧
      ∀ v ∈ (s.node n).notes.map (·.2), J.start.Holds v := by
  cases spot with
  | listed l =>
    obtain ⟨rfl, hfinal, _⟩ := hn
    have hsize := hfinal.isBelow.lt_size J.sound.closed J.tree.there
    rw [h.settling.follows.extends_.form _ hsize, h.settling.follows.extends_.notes _ hsize]
    refine ⟨J.sound.closed.field n, fun v hv => ?_⟩
    obtain ⟨e, he, rfl⟩ := List.mem_map.mp hv
    exact J.sound.closed.note n e he
  | made k name =>
    obtain ⟨_, hname, _, _, hnode⟩ := hn
    rw [hnode]
    refine ⟨fun v hv => ?_, fun v hv => absurd hv (by simp)⟩
    simp only [Form.fields, Expression.fields, List.mem_singleton] at hv
    rw [hv]
    exact hname

/-- So was whatever else it shows, parents apart. -/
theorem attribute_held (hn : J.start.Standing J.root s n spot) (hname : name ∉ parentNames)
    {v : Value} (hv : s.getAttribute (.node n) name = .ok v) : J.start.Holds v := by
  obtain ⟨hfields, hnotes⟩ := h.own_held hn
  have hposition : J.start.Holds (s.node n).position.line ∧
      J.start.Holds (s.node n).position.column ∧ J.start.Holds (s.node n).position.file := by
    cases spot with
    | listed l =>
      obtain ⟨rfl, hfinal, _⟩ := hn
      exact hfinal.held J.sound.closed
    | made k name =>
      obtain ⟨_, _, p, hp, hnode⟩ := hn
      rw [hnode]
      exact hp.held J.sound.closed
  rcases getAttribute_node_cases hname hv with hfield | hnote | hempty
  · rw [Node.fields, List.map_append,
      List.map_snd_zip (Nat.le_of_eq (length_fieldNames _).symm)] at hfield
    simp only [List.map_cons, List.map_nil, List.mem_append, List.mem_cons, List.not_mem_nil,
      or_false] at hfield
    rcases hfield with (rfl | rfl | rfl) | hfield
    · exact hposition.1
    · exact hposition.2.1
    · exact hposition.2.2
    · exact hfields v hfield
  · exact hnotes v hnote
  · exact .of_cells hempty

/-- What was there from the start has a kind that is a word. -/
theorem kind_start (hn : n < J.start.nodes.size) :
    ∃ word, (J.start.node n).kind = .text word ∧ (s.node n).kind = .text word := by
  have hkind : (s.node n).kind = (J.start.node n).kind := by
    unfold Node.kind Node.nodeClass
    rw [h.settling.follows.extends_.form n hn, h.settling.follows.extends_.notes n hn]
  rw [hkind]
  unfold Node.kind
  cases hk : (J.start.node n).notes.lookup "kind" with
  | none => exact ⟨_, rfl, rfl⟩
  | some v =>
    obtain ⟨word, rfl⟩ := J.sound.kinds n v hk
    exact ⟨word, rfl, rfl⟩

/-- What stands in a document or was made for it has a word for its kind. -/
theorem kind_word (hn : J.start.Standing J.root s n spot) :
    ∃ word, (s.node n).kind = .text word := by
  cases spot with
  | listed l =>
    obtain ⟨rfl, hfinal, _⟩ := hn
    obtain ⟨word, _, hword⟩ := h.kind_start (hfinal.isBelow.lt_size J.sound.closed J.tree.there)
    exact ⟨word, hword⟩
  | made k name =>
    obtain ⟨_, _, _, _, hnode⟩ := hn
    rw [hnode]
    exact ⟨_, rfl⟩

end Working

/-! ## Twins -/

/-- Two nodes, each in its own store, that arrived at one spot. -/
structure Twins (J : Job) (s t : Store) (n m : NodeId) (spot : Spot) : Prop where
  left : J.start.Standing J.root s n spot
  right : J.start.Standing J.root t m spot

theorem Twins.ahead {s' t' : Store} (h : J.Twins s t n m spot) (hahead : J.Ahead s t s' t') :
    J.Twins s' t' n m spot :=
  ⟨hahead.left.onward n spot h.left, hahead.right.onward m spot h.right⟩

namespace Twins

variable (h : J.Twins s t n m spot)
include h

/-- Twins stand at the same place. -/
theorem position : (t.node m).position = (s.node n).position := by
  obtain ⟨hn, hm⟩ := h
  cases spot with
  | listed l =>
    obtain ⟨rfl, hfinal, _⟩ := hn
    obtain ⟨rfl, hfinal', _⟩ := hm
    exact hfinal'.unique J.tree hfinal
  | made k name =>
    obtain ⟨_, _, p, hp, hnode⟩ := hn
    obtain ⟨_, _, q, hq, hnode'⟩ := hm
    rw [hnode, hnode', hp.unique J.tree hq]

/-- They are of the same form. -/
theorem form (hst : J.Beside s t) : (t.node m).form = (s.node n).form := by
  obtain ⟨hn, hm⟩ := h
  cases spot with
  | listed l =>
    obtain ⟨rfl, hfinal, _⟩ := hn
    obtain ⟨rfl, _⟩ := hm
    have hsize := hfinal.isBelow.lt_size J.sound.closed J.tree.there
    rw [hst.left.settling.follows.extends_.form _ hsize,
      hst.right.settling.follows.extends_.form _ hsize]
  | made k name =>
    obtain ⟨_, _, _, _, hnode⟩ := hn
    obtain ⟨_, _, _, _, hnode'⟩ := hm
    rw [hnode, hnode']

/-- And they have the same notes. -/
theorem notes (hst : J.Beside s t) : (t.node m).notes = (s.node n).notes := by
  obtain ⟨hn, hm⟩ := h
  cases spot with
  | listed l =>
    obtain ⟨rfl, hfinal, _⟩ := hn
    obtain ⟨rfl, _⟩ := hm
    have hsize := hfinal.isBelow.lt_size J.sound.closed J.tree.there
    rw [hst.left.settling.follows.extends_.notes _ hsize,
      hst.right.settling.follows.extends_.notes _ hsize]
  | made k name =>
    obtain ⟨_, _, _, _, hnode⟩ := hn
    obtain ⟨_, _, _, _, hnode'⟩ := hm
    rw [hnode, hnode']

theorem toOption_attribute (hst : J.Beside s t) (hname : name ∉ parentNames) :
    (s.getAttribute (.node n) name).toOption = (t.getAttribute (.node m) name).toOption := by
  refine (nodeAttribute_congr (h.form hst) (h.notes hst) ?_ hname).symm
  unfold Node.fields Node.nodeClass
  rw [h.position, h.form hst]

/-- A lint is placed alike at both. -/
theorem toOption_lineAndColumn :
    (s.lineAndColumn (.node n)).toOption = (t.lineAndColumn (.node m)).toOption := by
  have hnull : ∀ (u : Store) (k : NodeId),
      (u.node k).position.line = .null → (u.lineAndColumn (.node k)).toOption = none := by
    intro u k hk
    rw [Store.lineAndColumn, getAttribute_line, hk]
    simp only [orMissing]
    cases u.getAttribute (.node k) "kind" with
    | error fault => rfl
    | ok kind =>
      simp only
      cases u.tryBare kind <;> rfl
  have hposition := h.position
  by_cases hline : (s.node n).position.line = .null
  · rw [hnull s n hline, hnull t m (by rw [hposition, hline])]
  · rw [Store.lineAndColumn, Store.lineAndColumn, getAttribute_line, getAttribute_line,
      getAttribute_column, getAttribute_column, hposition]
    cases hl : (s.node n).position.line with
    | null => exact absurd hl hline
    | missing owner lost => rfl
    | _ => cases (s.node n).position.column <;> rfl

/-- Both nodes have the same kind, which is a word. -/
theorem kindOf (hst : J.Beside s t) :
    ∃ word, s.kindOf (.node n) = .ok word ∧ t.kindOf (.node m) = .ok word := by
  obtain ⟨word, hword⟩ := hst.left.kind_word h.left
  have hkind : (t.node m).kind = .text word := by
    rw [← hword]
    unfold Node.kind Node.nodeClass
    rw [h.notes hst, h.form hst]
  exact ⟨word, kindOf_word hst.left.unbacked hword, kindOf_word hst.right.unbacked hkind⟩

/-- Both nodes have the same parent: the container, or none at the root. -/
theorem parent (hst : J.Beside s t) :
    s.getAttribute (.node n) "parent" = .ok .null ∧ t.getAttribute (.node m) "parent" = .ok .null ∨
      ∃ k, J.start.Below J.root k ∧ s.getAttribute (.node n) "parent" = .ok (.node k) ∧
        t.getAttribute (.node m) "parent" = .ok (.node k) := by
  obtain ⟨hn, hm⟩ := h
  cases spot with
  | listed l =>
    obtain ⟨rfl, _, hattached⟩ := hn
    obtain ⟨rfl, _, hattached'⟩ := hm
    rcases hattached with rfl | ⟨k, hk, hleads, hto⟩
    · exact Or.inl ⟨getAttribute_parent hst.left.settling.free,
        getAttribute_parent hst.right.settling.free⟩
    · rcases hattached' with rfl | ⟨k', hk', hleads', hto'⟩
      · exact absurd hleads (J.tree.top hk)
      · obtain rfl := J.tree.unique hk hk' hleads hleads'
        exact Or.inr ⟨k, hk, getAttribute_parent (parent?_eq_some.mpr hto),
          getAttribute_parent (parent?_eq_some.mpr hto')⟩
  | made k name =>
    obtain ⟨_, _, p, hp, hnode⟩ := hn
    obtain ⟨_, _, q, _, hnode'⟩ := hm
    exact Or.inr ⟨k, hp.isBelow, getAttribute_parent (parent?_eq_some.mpr (by rw [hnode])),
      getAttribute_parent (parent?_eq_some.mpr (by rw [hnode']))⟩

end Twins

/-! ## Equal twins -/

theorem Beside.symm (h : J.Beside s t) : J.Beside t s := ⟨h.right, h.left, h.same.symm⟩

theorem Twins.symm (h : J.Twins s t n m spot) : J.Twins t s m n spot := ⟨h.right, h.left⟩

variable {n' m' : NodeId} {spot' : Spot}

/-- Nodes that are equal in one run have equal twins in the other. -/
theorem Twins.sameTo_of_sameTo (hst : J.Beside s t) (h : J.Twins s t n m spot)
    (h' : J.Twins s t n' m' spot') (hone : n = n' ↔ m = m') {d : Nat}
    (hsame : s.sameTo d (.node n) (.node n') = true) :
    t.sameTo d (.node m) (.node m') = true := by
  cases d with
  | zero => exact hsame
  | succ d =>
    refine sameNode_imp (h.form hst) (h'.form hst) (fun _ _ => hone) (fun x hx y hy hxy => ?_) hsame
    -- the fields were there from the start
    have hheld := (hst.left.own_held h.left).1 x hx
    have hheld' := (hst.left.own_held h'.left).1 y hy
    rw [sameTo_extends J.sound.closed hst.left.settling.follows.extends_ d hheld hheld'] at hxy
    rw [sameTo_extends J.sound.closed hst.right.settling.follows.extends_ d hheld hheld']
    exact hxy

/-- Of two nodes and their twins both pairs are equal, or neither. -/
theorem Twins.exists_sameTo (hst : J.Beside s t) (h : J.Twins s t n m spot)
    (h' : J.Twins s t n' m' spot') (hone : n = n' ↔ m = m') :
    (∃ d, s.sameTo d (.node n) (.node n') = true) ↔
      ∃ d, t.sameTo d (.node m) (.node m') = true :=
  ⟨fun ⟨d, hd⟩ => ⟨d, h.sameTo_of_sameTo hst h' hone hd⟩,
    fun ⟨d, hd⟩ => ⟨d, h.symm.sameTo_of_sameTo hst.symm h'.symm hone.symm hd⟩⟩

end Job

end SheetLint
