import SheetLint.Proofs.Choices
import SheetLint.Proofs.Passes

/-!
# A linter and its document

A `Job` is a linter that is about to run over a document, in the store as it is before any pass: the
document is a tree, and what the class of the linter mentions is there. Two runs of it may start
from different stores that came out of that one. `Job.Tallies` is how they are compared, step by
step: either both fail at a step, or both go on, with as many lints recorded that say the same.

What a lint says (`Report`) are all its parts but the marks, by which it and its location can only
be told from others that look like them.
-/

namespace SheetLint

open Store

/-- What a lint says. -/
structure Report where
  linter : Value
  file : Value
  line : Value
  column : Value
  length : Value
  description : Value
  severity : Value
  fixable : Bool

/-- The lint that says something, made when `mark` was the next mark: the location comes first. -/
def Report.lint (r : Report) (mark : Nat) : Value :=
  .lint (mark + 1) r.linter r.file (.location mark r.line r.column r.length) r.description
    r.severity r.fixable

/-- What a value says as a lint, if it is one with a location. -/
def Value.report? : Value → Option Report
  | .lint _ linter file (.location _ line column length) description sev fixable =>
    some { linter, file, line, column, length, description, severity := sev, fixable }
  | _ => none

theorem Report.report?_lint (r : Report) (mark : Nat) : (r.lint mark).report? = some r := rfl

namespace Action

/-- The names by which a node shows its parent or makes something anew. A test of what a node has of
its own does not use them. -/
def foreignNames : List String :=
  parentNames ++ ["__dict__", "__match_args__", "__annotations__", "__dataclass_fields__"]

mutual

/-- An action tests nothing but what a node has of its own and the kind of its parent. What it
mentions is there, and the locations it mentions are made of parts of a sort. -/
def Plain (s : Store) (Part : Value → Prop) : Action → Prop
  | .lint description place _ => s.Holds description ∧ ∀ v, place = some v →
      s.Holds v ∧ ∀ parts, s.items v = .ok parts → ∀ x ∈ parts, Part x
  | .descend => True
  | .whenAttribute name expected body =>
    name ∉ foreignNames ∧ (∀ v, expected = .ok v → s.Holds v) ∧ AllPlain s Part body
  | .whenParent kind body => s.Holds kind ∧ AllPlain s Part body
  | .duplicates _ => True
  | .fail _ => True

def AllPlain (s : Store) (Part : Value → Prop) : List Action → Prop
  | [] => True
  | a :: as => Plain s Part a ∧ AllPlain s Part as

end

end Action

namespace Store

/-- Nothing was ever put in place of the attributes of something, and kinds are words. -/
structure Sound (s : Store) : Prop where
  closed : s.Closed
  unbacked : s.hasBacked = false
  present : ∀ n, (s.node n).position.Present
  kinds : ∀ n v, (s.node n).notes.lookup "kind" = some v → ∃ word, v = .text word

/-- Whether the kind that was written to a node is a word. -/
def kindIsWord (s : Store) (n : NodeId) : Bool :=
  match (s.node n).notes.lookup "kind" with
  | none => true
  | some (.text _) => true
  | _ => false

/-- A closed store in which nothing is backed is sound if the nodes that are there are whole and
have words for kinds. -/
theorem sound_of_nodes {s : Store} (closed : s.Closed) (unbacked : s.hasBacked = false)
    (present : ∀ n < s.nodes.size, (s.node n).position.Present)
    (kinds : ∀ n < s.nodes.size, s.kindIsWord n) : s.Sound where
  closed := closed
  unbacked := unbacked
  present n := by
    rcases Nat.lt_or_ge n s.nodes.size with hn | hn
    · exact present n hn
    · rw [node_of_size_le hn]
      exact ⟨rfl, rfl, rfl⟩
  kinds n v hv := by
    rcases Nat.lt_or_ge n s.nodes.size with hn | hn
    · have hword := kinds n hn
      unfold kindIsWord at hword
      rw [hv] at hword
      cases v with
      | text word => exact ⟨word, rfl⟩
      | _ => simp at hword
    · rw [node_of_size_le hn] at hv
      simp at hv

/-- An agent is a linter whose class does nothing but plain actions. -/
structure IsPlain (s : Store) (Part : Value → Prop) (i : AgentId) : Prop where
  isLinter : s.IsLinter i
  plain : ∀ l, s.linter? i = some l → ∀ e ∈ l.behaviour.visits, Action.AllPlain s Part e.2

end Store

/-- A linter that is about to run over a document in a file. -/
structure Job where
  start : Store
  root : NodeId
  linter : AgentId
  file : Value
  /-- What lines, columns and lengths can be. -/
  Part : Value → Prop
  sound : start.Sound
  tree : start.TreeFrom root
  works : start.IsPlain Part linter
  one : Part (.int 1)
  located : ∀ n, start.Below root n → ∀ v,
    v = (start.node n).position.line ∨ v = (start.node n).position.column →
      v.isNull = false → Part v

namespace Job

variable (J : Job) {s t s' t' : Store}

/-- The store during a run. -/
structure Working (s : Store) : Prop where
  settling : J.start.Settling J.root s
  lints : ∃ l, s.lintsOf J.linter = .list l ∧ J.start.lists.size ≤ l ∧ l < s.lists.size
  file : (s.linter? J.linter).map Linter.file = some J.file

/-- The lints that are recorded so far. -/
def lints (s : Store) : List Value :=
  match s.lintsOf J.linter with
  | .list l => s.list l
  | _ => []

/-- What a lint of the linter can say. -/
structure Says (r : Report) : Prop where
  linter : r.linter = .agent J.linter
  file : r.file = J.file
  present : r.file.isMissing = false
  parts : ∀ v ∈ [r.line, r.column, r.length], J.Part v
  description : J.start.Holds r.description
  severity : ((Linter.severity J.linter).perform J.start).1.toOption = some r.severity

/-- Lints that were made one after the other, with marks from `first` on and below `last`. -/
inductive Made : (first last : Nat) → List Value → Prop where
  | nil {first last : Nat} : first ≤ last → Made first last []
  | cons {first last mark : Nat} {r : Report} {xs : List Value} : first ≤ mark + 1 → J.Says r →
      Made (mark + 2) last xs → Made first last (r.lint mark :: xs)

/-- A run went on. -/
structure Gone (s s' : Store) : Prop where
  onward : J.start.Onward J.root s s'
  lints : ∃ new, J.lints s' = J.lints s ++ new ∧ J.Made s.marks s'.marks new

/-- The stores of two runs that recorded the same. -/
structure Beside (s t : Store) : Prop where
  left : J.Working s
  right : J.Working t
  same : (J.lints s).map Value.report? = (J.lints t).map Value.report?

/-- The stores of two runs went on, and recorded the same. -/
structure Ahead (s t s' t' : Store) : Prop where
  beside : J.Beside s' t'
  left : J.Gone s s'
  right : J.Gone t t'

variable {J}

theorem Made.le {first last : Nat} {xs : List Value} (h : J.Made first last xs) :
    first ≤ last := by
  induction h with
  | nil h => exact h
  | cons h _ _ ih => omega

theorem Made.weaken {first first' last : Nat} {xs : List Value} (hle : first' ≤ first)
    (h : J.Made first last xs) : J.Made first' last xs := by
  cases h with
  | nil h => exact .nil (Nat.le_trans hle h)
  | cons h hr hxs => exact .cons (Nat.le_trans hle h) hr hxs

/-- Each of the lints that were made says what the job says, with marks from the time in between. -/
theorem Made.mem {first last : Nat} {xs : List Value} (h : J.Made first last xs) :
    ∀ x ∈ xs, ∃ r mark, x = r.lint mark ∧ J.Says r ∧ first ≤ mark + 1 ∧ mark + 2 ≤ last := by
  induction h with
  | nil _ => exact fun _ hx => absurd hx (by simp)
  | cons hfirst hr hxs ih =>
    intro x hx
    have hlast := hxs.le
    rcases List.mem_cons.mp hx with rfl | hx
    · exact ⟨_, _, rfl, hr, hfirst, hlast⟩
    · obtain ⟨r', mark', rfl, hr', hfirst', hlast'⟩ := ih x hx
      exact ⟨r', mark', rfl, hr', by omega, hlast'⟩

theorem Made.append {first next last : Nat} {xs ys : List Value} (hxs : J.Made first next xs)
    (hys : J.Made next last ys) : J.Made first last (xs ++ ys) := by
  induction hxs with
  | nil h => exact hys.weaken h
  | cons h hr _ ih => exact .cons h hr (ih hys)

theorem Gone.refl (s : Store) : J.Gone s s := ⟨.refl, [], by simp, .nil (Nat.le_refl _)⟩

theorem Gone.trans {s'' : Store} (h : J.Gone s s') (h' : J.Gone s' s'') : J.Gone s s'' := by
  obtain ⟨new, hnew, hmade⟩ := h.lints
  obtain ⟨new', hnew', hmade'⟩ := h'.lints
  refine ⟨h.onward.trans h'.onward, new ++ new', ?_, hmade.append hmade'⟩
  rw [hnew', hnew, List.append_assoc]

theorem Ahead.refl (h : J.Beside s t) : J.Ahead s t s t := ⟨h, .refl s, .refl t⟩

theorem Ahead.trans {s'' t'' : Store} (h : J.Ahead s t s' t') (h' : J.Ahead s' t' s'' t'') :
    J.Ahead s t s'' t'' :=
  ⟨h'.beside, h.left.trans h'.left, h.right.trans h'.right⟩

/-! ## Two edits side by side -/

variable {α β : Type}

/-- Two edits, each from its own store, both fail or both give results that go together. -/
def Tallies (J : Job) (s t : Store) (x y : Edit α) (Q : α → α → Store → Store → Prop) : Prop :=
  match x.perform s, y.perform t with
  | (.ok a, s'), (.ok b, t') => J.Ahead s t s' t' ∧ Q a b s' t'
  | (.error _, _), (.error _, _) => True
  | _, _ => False

variable {x y : Edit α} {Q : α → α → Store → Store → Prop}

/-- Sequences tally if their first parts do, and what follows does on all results that go
together. -/
theorem tallies_bind {f g : α → Edit β} {Q' : β → β → Store → Store → Prop}
    (h : J.Tallies s t x y Q)
    (hfg : ∀ a b s' t', J.Ahead s t s' t' → Q a b s' t' → J.Tallies s' t' (f a) (g b) Q') :
    J.Tallies s t (x >>= f) (y >>= g) Q' := by
  unfold Tallies at h ⊢
  rw [Edit.perform_bind, Edit.perform_bind]
  cases hx : x.perform s with
  | mk r s₁ =>
    cases hy : y.perform t with
    | mk r' t₁ =>
      rw [hx, hy] at h
      cases r with
      | error fault =>
        cases r' with
        | error fault' => trivial
        | ok b => exact h.elim
      | ok a =>
        cases r' with
        | error fault' => exact h.elim
        | ok b =>
          obtain ⟨hahead, hQ⟩ := h
          have hnext := hfg a b s₁ t₁ hahead hQ
          unfold Tallies at hnext
          simp only
          cases hf : (f a).perform s₁ with
          | mk r₁ s₂ =>
            cases hg : (g b).perform t₁ with
            | mk r₂ t₂ =>
              rw [hf, hg] at hnext
              cases r₁ with
              | error fault =>
                cases r₂ with
                | error fault' => trivial
                | ok d => exact hnext.elim
              | ok c =>
                cases r₂ with
                | error fault' => exact hnext.elim
                | ok d => exact ⟨hahead.trans hnext.1, hnext.2⟩

/-- What tallies in one way tallies in any weaker one. -/
theorem Tallies.imp {Q' : α → α → Store → Store → Prop} (h : J.Tallies s t x y Q)
    (hQ : ∀ a b s' t', Q a b s' t' → Q' a b s' t') : J.Tallies s t x y Q' := by
  unfold Tallies at h ⊢
  cases hx : x.perform s with
  | mk r s₁ =>
    cases hy : y.perform t with
    | mk r' t₁ =>
      rw [hx, hy] at h
      cases r with
      | error fault => cases r' <;> exact h
      | ok a =>
        cases r' with
        | error fault' => exact h
        | ok b => exact ⟨h.1, hQ a b s₁ t₁ h.2⟩

theorem tallies_pure (h : J.Beside s t) {a b : α} (hQ : Q a b s t) :
    J.Tallies s t (pure a) (pure b) Q :=
  ⟨.refl h, hQ⟩

theorem tallies_throw (fault fault' : Fault) : J.Tallies s t (throw fault) (throw fault') Q :=
  trivial

/-- Each run goes on with what it reads of its own store. -/
theorem tallies_get_bind {k k' : Store → Edit β} {Q : β → β → Store → Store → Prop}
    (h : J.Tallies s t (k s) (k' t) Q) : J.Tallies s t (get >>= k) (get >>= k') Q := by
  unfold Tallies
  rw [Edit.perform_bind_ok (Edit.perform_get s), Edit.perform_bind_ok (Edit.perform_get t)]
  exact h

theorem tallies_read_bind {f g : Store → α} {k k' : α → Edit β}
    {Q : β → β → Store → Store → Prop} (h : J.Tallies s t (k (f s)) (k' (g t)) Q) :
    J.Tallies s t (Edit.read f >>= k) (Edit.read g >>= k') Q := by
  unfold Tallies
  rw [Edit.perform_bind_ok (Edit.perform_read f s), Edit.perform_bind_ok (Edit.perform_read g t)]
  exact h

/-- What is read alike goes on alike. -/
theorem tallies_tryRead_bind (h : J.Beside s t) {f g : Store → Except Fault α}
    {k k' : α → Edit β} {Q : β → β → Store → Store → Prop} (hfg : (f s).toOption = (g t).toOption)
    (hk : ∀ a, f s = .ok a → J.Tallies s t (k a) (k' a) Q) :
    J.Tallies s t (Edit.tryRead f >>= k) (Edit.tryRead g >>= k') Q := by
  refine tallies_bind (Q := fun a b s' t' => s' = s ∧ t' = t ∧ a = b ∧ f s = .ok a) ?_ ?_
  · unfold Tallies
    rw [Edit.perform_tryRead, Edit.perform_tryRead]
    rcases fail_or_agree hfg with ⟨_, _, hf, hg⟩ | ⟨a, hf, hg⟩
    · rw [hf, hg]
      trivial
    · rw [hf, hg]
      exact ⟨.refl h, rfl, rfl, rfl, rfl⟩
  · rintro a b s' t' _ ⟨rfl, rfl, rfl, ha⟩
    exact hk a ha

/-! ## What records nothing -/

/-- A later store of a run in which nothing more was recorded. -/
def Still (J : Job) (s s' : Store) : Prop :=
  J.Working s → J.Working s' ∧ J.start.Onward J.root s s' ∧ J.lints s' = J.lints s ∧
    s.marks ≤ s'.marks

/-- Both runs went on and recorded nothing. -/
theorem Beside.ahead (h : J.Beside s t) (hs : J.Still s s') (ht : J.Still t t') :
    J.Ahead s t s' t' := by
  obtain ⟨hleft, hon, hlints, hmarks⟩ := hs h.left
  obtain ⟨hright, hon', hlints', hmarks'⟩ := ht h.right
  refine ⟨⟨hleft, hright, ?_⟩, ⟨hon, [], ?_, .nil hmarks⟩, ⟨hon', [], ?_, .nil hmarks'⟩⟩
  · rw [hlints, hlints']
    exact h.same
  · rw [hlints, List.append_nil]
  · rw [hlints', List.append_nil]

/-- A run works on as long as nodes and agents stay, and lists are added at most. -/
theorem Working.of_rest (h : J.Working s) (nodes : s'.nodes = s.nodes)
    (agents : s'.agents = s.agents) (backed : s'.hasBacked = s.hasBacked)
    (hextends : J.start.Extends s') (hlists : s.lists.size ≤ s'.lists.size) : J.Working s' where
  settling := h.settling.of_rest J.sound.closed J.tree
    (h.settling.follows.of_agents hextends agents backed) nodes
  lints := by
    obtain ⟨l, hl, hfirst, hlast⟩ := h.lints
    exact ⟨l, (Linter.lintsOf_congr agents _).trans hl, hfirst, Nat.lt_of_lt_of_le hlast hlists⟩
  file := by
    have hfile := h.file
    unfold linter? agent? at hfile ⊢
    rw [agents]
    exact hfile

/-- Nothing was recorded where nodes, agents and all old lists stay. -/
theorem Still.of_rest (nodes : s'.nodes = s.nodes) (agents : s'.agents = s.agents)
    (backed : s'.hasBacked = s.hasBacked) (hextends : J.start.Extends s → J.start.Extends s')
    (hlists : s.lists.size ≤ s'.lists.size)
    (hlist : ∀ l, l < s.lists.size → s'.list l = s.list l) (hmarks : s.marks ≤ s'.marks) :
    J.Still s s' := by
  intro h
  refine ⟨h.of_rest nodes agents backed (hextends h.settling.follows.extends_) hlists, ?_, ?_,
    hmarks⟩
  · exact Onward.of_nodes fun n => by rw [node, node?, nodes]; rfl
  · obtain ⟨l, hl, _, hlast⟩ := h.lints
    unfold Job.lints
    rw [Linter.lintsOf_congr agents, hl]
    exact hlist l hlast

/-- Whatever a linter does beside computing children and recording lints records nothing. -/
theorem quiet_still (J : Job) : Linter.Quiet J.Still where
  later := {
    refl := fun s h => ⟨h, .refl, rfl, Nat.le_refl _⟩
    trans := fun hst htu h => by
      obtain ⟨h₁, hon₁, hlints₁, hmarks₁⟩ := hst h
      obtain ⟨h₂, hon₂, hlints₂, hmarks₂⟩ := htu h₁
      exact ⟨h₂, hon₁.trans hon₂, hlints₂.trans hlints₁, Nat.le_trans hmarks₁ hmarks₂⟩ }
  mark s := .of_rest rfl rfl rfl (fun h => h.of_rest rfl rfl rfl) (Nat.le_refl _) (fun _ _ => rfl)
    (Nat.le_succ _)
  list s items := by
    refine .of_rest rfl rfl rfl (fun h => h.addList items) ?_ (fun l hl => ?_) (Nat.le_refl _)
    · simp [Store.addList]
    · rw [list_addList, if_neg (Nat.ne_of_lt hl)]
  table s entries :=
    .of_rest rfl rfl rfl (fun h => h.addTable entries) (Nat.le_refl _) (fun _ _ => rfl)
      (Nat.le_refl _)
  note s m _ :=
    .of_rest rfl rfl rfl (fun h => h.note m) (Nat.le_refl _) (fun _ _ => rfl) (Nat.le_refl _)

/-- Edits that record nothing and give results tally. -/
theorem tallies_results (h : J.Beside s t) {a b : α} (hs : J.Still s s') (ht : J.Still t t')
    (hx : x.perform s = (.ok a, s')) (hy : y.perform t = (.ok b, t')) (hQ : Q a b s' t') :
    J.Tallies s t x y Q := by
  unfold Tallies
  rw [hx, hy]
  exact ⟨h.ahead hs ht, hQ⟩

/-- Edits that record nothing and have the same result tally. -/
theorem tallies_of_still (h : J.Beside s t) (hx : Edit.Moves J.Still x) (hy : Edit.Moves J.Still y)
    (hxy : (x.perform s).1.toOption = (y.perform t).1.toOption) :
    J.Tallies s t x y fun a b s' t' => a = b ∧ x.perform s = (.ok a, s') ∧
      y.perform t = (.ok b, t') := by
  have hahead := h.ahead (hx s) (hy t)
  unfold Tallies
  cases hs : x.perform s with
  | mk r s₁ =>
    cases ht : y.perform t with
    | mk r' t₁ =>
      rw [hs, ht] at hahead hxy
      rcases fail_or_agree hxy with ⟨_, _, rfl, rfl⟩ | ⟨a, rfl, rfl⟩
      · trivial
      · exact ⟨hahead, rfl, rfl, rfl⟩

end Job

end SheetLint
