import SheetLint.Proofs.Handing
import SheetLint.Proofs.Settling

/-!
# What is printed where locations are completed

A store is fuller than another one if all that differs is that locations lack less, whoever the
parents are and whatever was logged (`Store.Fuller`). What is printed of a value is a matter of all
that it shows, so it may differ; it reads the same where nothing that is shown has got another
location (`Fuller.bare`). So it is with the message that a child has moved, which can be given in
the one store if it can in the other (`Fuller.reparented`).
-/

namespace SheetLint

namespace Store

variable {s t u : Store} {v w : Value} {n c : NodeId} {m : Message}

/-- The values that are printed when a child moves to `n` from another parent. -/
def told (s : Store) (c n : NodeId) (current : Value) : List Value :=
  [(s.node c).kind, (s.node c).position.line, (s.node n).kind] ++
    (s.getAttribute current "kind").toOption.toList

/-- A node that stands where it did has the same line. -/
theorem getAttribute_line_of_position (hc : (t.node c).position = (s.node c).position)
    (hw : t.getAttribute (.node c) "line" = .ok w) :
    w = (s.node c).position.line ∧ s.getAttribute (.node c) "line" = .ok w := by
  rw [getAttribute_line, hc] at hw
  rw [getAttribute_line]
  generalize (s.node c).position.line = line at hw ⊢
  cases line with
  | missing owner lost => cases hw
  | _ =>
    cases hw
    exact ⟨rfl, rfl⟩

/-! ## More of the locations -/

/-- Nodes lack no more of their location than they did. Nothing else has changed, parents and the
log apart. -/
structure Fuller (s t : Store) : Prop where
  lists : t.lists = s.lists
  tables : t.tables = s.tables
  agents : t.agents = s.agents
  hasBacked : t.hasBacked = s.hasBacked
  form : ∀ n, (t.node n).form = (s.node n).form
  notes : ∀ n, (t.node n).notes = (s.node n).notes
  position : ∀ n, (s.node n).position.Towards (t.node n).position

namespace Fuller

theorem refl (s : Store) : s.Fuller s :=
  ⟨rfl, rfl, rfl, rfl, fun _ => rfl, fun _ => rfl, fun _ => .refl _⟩

/-- Handing down a location makes a store fuller. -/
theorem fill (h : s.Fuller t) (c n : NodeId) : s.Fuller (t.fill c n) where
  lists := (list_fill t c n).trans h.lists
  tables := (tables_fill t c n).trans h.tables
  agents := (agents_fill t c n).trans h.agents
  hasBacked := (hasBacked_fill t c n).trans h.hasBacked
  form d := by
    rw [← h.form d, node_fill]
    split
    · rename_i hd
      rw [hd.1]
    · rfl
  notes d := by
    rw [← h.notes d, node_fill]
    split
    · rename_i hd
      rw [hd.1]
    · rfl
  position d := by
    rw [node_fill]
    split
    · rename_i hd
      rw [hd.1]
      exact (h.position c).trans (Position.towards_completed ..)
    · exact h.position d

theorem fillAll (h : s.Fuller t) (n : NodeId) (cs : List NodeId) : s.Fuller (t.fillAll n cs) :=
  fillAll_keeps (fun _ => True) (fun _ c h _ => h.fill c n) cs h fun _ _ => trivial

/-- Who the parents are is left open. -/
theorem setParent (h : s.Fuller t) (c : NodeId) (p : Value) :
    s.Fuller (t.setParent (.node c) p) where
  lists := h.lists
  tables := h.tables
  agents := h.agents
  hasBacked := h.hasBacked
  form d := by
    rw [node_setParent]
    split <;> exact h.form d
  notes d := by
    rw [node_setParent]
    split <;> exact h.notes d
  position d := by
    rw [position_setParent]
    exact h.position d

theorem note (h : s.Fuller t) (m : Message) : s.Fuller (t.note m) :=
  ⟨h.lists, h.tables, h.agents, h.hasBacked, h.form, h.notes, h.position⟩

/-! ## What is depicted -/

variable (h : s.Fuller t)
include h

theorem list (l : ListId) : t.list l = s.list l := by rw [Store.list, Store.list, h.lists]

theorem table (k : TableId) : t.table k = s.table k := by rw [Store.table, Store.table, h.tables]

theorem agent? (i : AgentId) : t.agent? i = s.agent? i := by
  rw [Store.agent?, Store.agent?, h.agents]

theorem kind (n : NodeId) : (t.node n).kind = (s.node n).kind := by
  rw [Node.kind, Node.kind, Node.nodeClass, Node.nodeClass, h.notes, h.form]

/-- What has a kind has the same one. -/
theorem hasKind (hw : t.getAttribute v "kind" = .ok w) :
    s.getAttribute v "kind" = .ok w := by
  rcases getAttribute_kind_cases hw with ⟨n, rfl⟩ | ⟨i, rfl⟩
  · rw [getAttribute_kind, h.kind] at hw
    rw [getAttribute_kind, hw]
  · rw [getAttribute_agent (by decide), h.agent?] at hw
    rw [getAttribute_agent (by decide)]
    cases ha : s.agent? i with
    | none =>
      rw [ha] at hw
      cases hw
    | some a =>
      rw [ha] at hw
      rw [← hw]
      simp only [Store.orMissing, typeName, agentClass, h.agents]

theorem fields (hn : (t.node n).position = (s.node n).position) :
    (t.node n).fields = (s.node n).fields := by
  rw [Node.fields, Node.fields, Node.nodeClass, Node.nodeClass, h.form, hn]

/-- A value that depicts nothing that is located otherwise is drawn as it was. -/
theorem picture (hends : s.Ends v)
    (hsame : ∀ e, s.Depicts v (.node e) → (t.node e).position = (s.node e).position) :
    t.picture v = s.picture v := by
  have hends' : t.Ends v := hends.congr fun x hx => by
    cases x with
    | list l => rw [drawn, drawn, h.list]
    | table k => rw [drawn, drawn, h.table]
    | node n => rw [drawn, drawn, h.fields (hsame n hx)]
    | agent i => rw [drawn, drawn, h.agent?]
    | _ => rfl
  refine s.descent_picture.alike_all t.descent_picture
    (P := fun v => ∀ e, s.Depicts v (.node e) → (t.node e).position = (s.node e).position)
    (fun hv x hx e he => hv e (.head hx he)) (fun _ _ => rfl) ?_ hends hends' hsame
  intro isWithin inner v hv
  cases v with
  | list l => rw [pictureStep, pictureStep, h.list]
  | table k => rw [pictureStep, pictureStep, h.table]
  | node n =>
    rw [pictureStep, pictureStep, h.fields (hv n .refl), Node.nodeClass, Node.nodeClass, h.form]
  | agent i => rw [pictureStep, pictureStep, h.agent?]
  | _ => rfl

theorem bare (hends : s.Ends v)
    (hsame : ∀ e, s.Depicts v (.node e) → (t.node e).position = (s.node e).position) :
    t.bare v = s.bare v := by
  cases v with
  | text x => rfl
  | _ => exact congrArg Data.quoted (h.picture hends hsame)

/-- A child that is said to have moved where more is located is said to have moved where less is, in
the same words if nothing that these show is located otherwise. -/
theorem reparented (hc : (t.node c).position = (s.node c).position)
    (hm : t.reparented (.node c) v (.node n) = .ok m) :
    ∃ m', s.reparented (.node c) v (.node n) = .ok m' ∧
      ((∀ w ∈ s.told c n v, s.Ends w ∧ ∀ e, s.Depicts w (.node e) →
        (t.node e).position = (s.node e).position) → m' = m) := by
  simp only [Store.reparented, bind, Except.bind] at hm
  cases hkind : t.getAttribute (.node c) "kind" with
  | error fault => simp [hkind] at hm
  | ok x =>
  cases hline : t.getAttribute (.node c) "line" with
  | error fault => simp [hkind, hline] at hm
  | ok line =>
  cases hfrom : t.getAttribute v "kind" with
  | error fault => simp [hkind, hline, hfrom] at hm
  | ok y =>
  cases hto : t.getAttribute (.node n) "kind" with
  | error fault => simp [hkind, hline, hfrom, hto] at hm
  | ok z =>
  simp only [hkind, hline, hfrom, hto] at hm
  cases hm
  have hx := h.hasKind hkind
  have hy := h.hasKind hfrom
  have hz := h.hasKind hto
  obtain ⟨rfl, hline'⟩ := getAttribute_line_of_position hc hline
  refine ⟨.reparented (s.bare x) (s.bare (s.node c).position.line) (s.bare y) (s.bare z), ?_,
    fun hsame => ?_⟩
  · simp only [Store.reparented, bind, Except.bind, hx, hline', hy, hz]
    rfl
  have hbare : ∀ w ∈ s.told c n v, t.bare w = s.bare w := fun w hw =>
    h.bare (hsame w hw).1 (hsame w hw).2
  rw [getAttribute_kind, Except.ok.injEq] at hx hz
  rw [hbare x (by simp [told, hx]), hbare _ (by simp [told]),
    hbare y (by simp [told, hy, Except.toOption]), hbare z (by simp [told, hz])]

end Fuller

end Store

end SheetLint
