import Mathlib.Algebra.GroupWithZero.Nat
import Mathlib.Data.List.Basic
import Mathlib.Logic.Relation
import SheetLint.Proofs.Places
import SheetLint.Store.Picture

/-!
# Pictures do not depend on the depth

A thing that is inside itself is drawn as an ellipsis, so a chain of parts enters each thing of the
store once, and between two of them it goes down in what is held in full. `Store.room` is what is
left to be entered. It gets less at every thing that is entered by as much as that thing holds
(`room_of_mem`), so a picture to a depth of more than the room and the value together is the whole
picture (`Descent.enough`), and `Store.weight` is all the room there is (`room_nil_le`). Looking for
what was lost, and keeps a value from being printed, goes down in it in the same way
(`Store.Descent`).

Agents are the exception: an agent is drawn again inside itself. What is drawn of it is its name, so
there is no end to an agent that is its own name. `Store.Ends` says that a value shows no such
agent, and `Store.Named` that there is none because names do not lead anywhere.
-/

namespace SheetLint

namespace Value

theorem weight_le_of_mem {xs : List Value} {x : Value} (h : x ∈ xs) : x.weight ≤ weightAll xs := by
  induction xs with
  | nil => exact absurd h (by simp)
  | cons y ys ih =>
    rw [weightAll]
    rcases List.mem_cons.mp h with rfl | h
    · exact Nat.le_add_right ..
    · exact Nat.le_trans (ih h) (Nat.le_add_left ..)

/-- Nothing but an agent is the thing that an agent is. -/
theorem eq_agent {v : Value} {i : AgentId} (h : v.cell? = some (.agent i)) : v = .agent i := by
  cases v with
  | agent j =>
    cases h
    rfl
  | float x m => cases x <;> cases h
  | _ => cases h

theorem weightAll_append : ∀ xs ys : List Value,
    weightAll (xs ++ ys) = weightAll xs + weightAll ys
  | [], ys => by simp [weightAll]
  | x :: xs, ys => by
    rw [List.cons_append, weightAll, weightAll, weightAll_append, Nat.add_assoc]

end Value

namespace Store

variable {s : Store} {within : List Cell} {c : Cell} {v x : Value}

/-- The names of agents hold nothing and are no agents. -/
def Named (s : Store) : Prop :=
  ∀ i a v, s.agent? i = some a → a.own? "name" = some v → v.cell? = none

/-- What is to be drawn of a thing when it is entered. -/
def charge (s : Store) (c : Cell) : Nat := Value.weightAll (s.contents c) + 1

/-- What is left to be drawn of a store inside some things. -/
def room (s : Store) (within : List Cell) : Nat :=
  ((s.places.filter fun c => !within.contains c).map s.charge).sum

/-! ## The room that is left -/

/-- A sum over fewer terms is no greater. -/
theorem sum_filter_le {α : Type} {p q : α → Bool} (f : α → Nat) : ∀ xs : List α,
    (∀ x ∈ xs, q x = true → p x = true) →
      ((xs.filter q).map f).sum ≤ ((xs.filter p).map f).sum
  | [], _ => Nat.le_refl _
  | x :: xs, h => by
    have hxs := sum_filter_le f xs fun y hy => h y (List.mem_cons_of_mem _ hy)
    have hx := h x (List.mem_cons_self ..)
    cases hq : q x <;> cases hp : p x <;> simp_all
    omega

/-- Filtering out more takes at least one of the things that are filtered out from a sum. -/
theorem sum_filter_lt {α : Type} {p q : α → Bool} (f : α → Nat) {y : α} : ∀ {xs : List α},
    (∀ x ∈ xs, q x = true → p x = true) → y ∈ xs → p y = true → q y = false →
      ((xs.filter q).map f).sum + f y ≤ ((xs.filter p).map f).sum
  | [], _, hy, _, _ => absurd hy (by simp)
  | x :: xs, h, hy, hpy, hqy => by
    have hrest : ∀ x ∈ xs, q x = true → p x = true := fun z hz => h z (List.mem_cons_of_mem _ hz)
    rcases List.mem_cons.mp hy with rfl | hy
    · have hle := sum_filter_le f xs hrest
      simp only [List.filter_cons, hpy, hqy, if_true, List.map_cons, List.sum_cons,
        Bool.false_eq_true, if_false]
      omega
    · have hlt := sum_filter_lt f hrest hy hpy hqy
      have hx := h x (List.mem_cons_self ..)
      cases hq : q x <;> cases hp : p x <;> simp_all
      · omega
      · omega

theorem room_cons_le (s : Store) (c : Cell) (within : List Cell) :
    s.room (c :: within) ≤ s.room within := by
  refine sum_filter_le s.charge _ fun d _ hd => ?_
  simp only [List.contains_cons, Bool.not_or, Bool.and_eq_true] at hd
  exact hd.2

/-- What a thing holds fits into the room that is left before it is entered. -/
theorem room_of_mem (hc : within.contains c = false) (hx : x ∈ s.contents c) :
    s.room (c :: within) + x.weight < s.room within := by
  have hplace : c ∈ s.places := Classical.byContradiction fun hno => by
    rw [contents_eq_nil hno] at hx
    exact absurd hx (by simp)
  have hlt := sum_filter_lt (p := fun d => !within.contains d)
    (q := fun d => !(c :: within).contains d) s.charge (fun d _ hd => by
      simp only [List.contains_cons, Bool.not_or, Bool.and_eq_true] at hd
      exact hd.2) hplace (by rw [hc]; rfl) (by simp)
  have hweight := Value.weight_le_of_mem hx
  have hcharge : s.charge c = Value.weightAll (s.contents c) + 1 := rfl
  unfold room
  omega

theorem foldl_add_eq {α : Type} (g : α → Nat) : ∀ (xs : List α) (w : Nat),
    xs.foldl (fun w x => w + g x + 1) w = w + (xs.map fun x => g x + 1).sum
  | [], w => by simp
  | x :: xs, w => by
    rw [List.foldl_cons, foldl_add_eq g xs, List.map_cons, List.sum_cons]
    omega

/-- What is to be drawn of everything of one sort. -/
theorem sum_range_eq {α : Type} (xs : Array α) {f : Nat → Nat} {g : α → Nat}
    (h : ∀ n x, xs[n]? = some x → f n = g x + 1) :
    ((List.range xs.size).map f).sum = xs.foldl (fun w x => w + g x + 1) 0 := by
  have hmap : (List.range xs.size).map f = xs.toList.map fun x => g x + 1 := by
    refine List.ext_getElem (by simp) fun n hn hn' => ?_
    have hlt : n < xs.size := by simpa using hn
    rw [List.getElem_map, List.getElem_map, List.getElem_range, Array.getElem_toList]
    exact h n _ (Array.getElem?_eq_getElem hlt)
  rw [← Array.foldl_toList, foldl_add_eq, hmap, Nat.zero_add]

/-- The weight of a store is all the room there is. -/
theorem room_nil_le (s : Store) : s.room [] ≤ s.weight := by
  have hall : (s.places.filter fun c => !([] : List Cell).contains c) = s.places :=
    List.filter_eq_self.mpr fun _ _ => rfl
  rw [room, hall, places, weight]
  simp only [List.map_append, List.sum_append, List.map_map]
  have hnodes := sum_range_eq s.nodes (f := s.charge ∘ .node)
    (g := fun x => Value.weightAll (x.elim [] Node.held)) fun n x hx => by
      simp [charge, contents, node?, hx]
  have hlists := sum_range_eq s.lists (f := s.charge ∘ .list) (g := Value.weightAll)
    fun n x hx => by simp [charge, contents, list, hx]
  have htables := sum_range_eq s.tables (f := s.charge ∘ .table)
    (g := fun t => Value.weightAll t.keys + Value.weightAll t.values) fun n x hx => by
      simp [charge, contents, table, hx, Value.weightAll_append]
  have hagents := sum_range_eq s.agents (f := s.charge ∘ .agent)
    (g := fun a => Value.weightAll a.held) fun n x hx => by simp [charge, contents, agent?, hx]
  simp only [← Nat.add_assoc] at htables
  omega

/-! ## One step -/

/-- One step of drawing a value, given how to draw its parts. -/
def pictureStep (s : Store) (isWithin : Bool) (inner : Value → Data) (v : Value) : Data :=
  match v with
  | .null => .null
  | .bool b => .bool b
  | .int i => .int i
  | .float x m => .float x m
  | .text t => .text t
  | .list l => if isWithin then .word "[...]" else .list ((s.list l).map inner)
  | .tuple _ xs => if isWithin then .word "(...)" else .tuple (xs.map inner)
  | .table t =>
    if isWithin then .word "\x7b...\x7d"
    else .table ((s.table t).map fun e => (inner e.1, inner e.2))
  | .node n =>
    if isWithin then .word "..."
    else .record (s.node n).nodeClass.name ((s.node n).fields.map fun f => (f.1, inner f.2))
  | .location _ l c n =>
    if isWithin then .word "..."
    else .record "Location" [("line", inner l), ("column", inner c), ("length", inner n)]
  | .lint _ source file loc description severity _ =>
    if isWithin then .word "..."
    else .record "Lint" [("linter", inner source), ("filename", inner file),
      ("location", inner loc), ("description", inner description), ("severity", inner severity)]
  | .agent i =>
    match s.agent? i with
    | some a =>
      let name := inner ((a.own? "name").getD .null)
      .word (a.role.printed name.bare name.quoted)
    | none => .word "..."
  | .severity x => .word x.printed
  | .policy p => .word p.printed
  | .foreign type => .word ("<" ++ type ++ ">")
  | .missing .. => .word "..."

theorem pictureTo_succ (s : Store) (d : Nat) (within : List Cell) (v : Value) :
    s.pictureTo (d + 1) within v = s.pictureStep (v.cell?.elim false within.contains)
      (s.pictureTo d (v.cell?.toList ++ within)) v := by
  cases v <;> rfl

/-- The parts of a value that are drawn. -/
def drawn (s : Store) (v : Value) : List Value :=
  match v with
  | .list l => s.list l
  | .tuple _ xs => xs
  | .table t => (s.table t).keys ++ (s.table t).values
  | .node n => (s.node n).fields.map (·.2)
  | .location _ l c n => [l, c, n]
  | .lint _ source file loc description severity _ => [source, file, loc, description, severity]
  | .agent i => (s.agent? i).toList.map fun a => (a.own? "name").getD .null
  | _ => []

/-- One value is drawn somewhere within another one, or is that one. -/
def Depicts (s : Store) : Value → Value → Prop :=
  Relation.ReflTransGen fun v x => x ∈ s.drawn v

/-- No agent that is drawn within a value is drawn within itself. -/
def Ends (s : Store) (v : Value) : Prop :=
  ∀ i, s.Depicts v (.agent i) →
    ¬Relation.TransGen (fun v x => x ∈ s.drawn v) (.agent i) (.agent i)

theorem Ends.drawn (h : s.Ends v) (hx : x ∈ s.drawn v) : s.Ends x := fun i hi => h i (.head hx hi)

/-- A value is drawn alike where its parts are. -/
theorem pictureStep_congr {f g : Value → Data} (isWithin : Bool)
    (h : ∀ x ∈ s.drawn v, f x = g x) : s.pictureStep isWithin f v = s.pictureStep isWithin g v := by
  cases v with
  | list l =>
    exact congrArg (fun ds => if isWithin then _ else Data.list ds) (List.map_congr_left h)
  | tuple m xs =>
    exact congrArg (fun ds => if isWithin then _ else Data.tuple ds) (List.map_congr_left h)
  | table t =>
    have hentries : (s.table t).map (fun e => (f e.1, f e.2)) =
        (s.table t).map fun e => (g e.1, g e.2) := by
      refine List.map_congr_left fun e he => ?_
      rw [h e.1 (List.mem_append_left _ (List.mem_map_of_mem he)),
        h e.2 (List.mem_append_right _ (List.mem_map_of_mem he))]
    rw [pictureStep, pictureStep, hentries]
  | node n =>
    have hfields : (s.node n).fields.map (fun e => (e.1, f e.2)) =
        (s.node n).fields.map fun e => (e.1, g e.2) :=
      List.map_congr_left fun e he => by rw [h e.2 (List.mem_map_of_mem he)]
    rw [pictureStep, pictureStep, hfields]
  | location m l c n =>
    rw [pictureStep, pictureStep, h l (by simp [drawn]), h c (by simp [drawn]),
      h n (by simp [drawn])]
  | lint m source file loc description severity fixable =>
    rw [pictureStep, pictureStep, h source (by simp [drawn]), h file (by simp [drawn]),
      h loc (by simp [drawn]), h description (by simp [drawn]), h severity (by simp [drawn])]
  | agent i =>
    cases ha : s.agent? i with
    | none => simp only [pictureStep, ha]
    | some a => simp only [pictureStep, ha, h ((a.own? "name").getD .null) (by simp [drawn, ha])]
  | _ => rfl

/-- Of what is inside itself no part is drawn, agents apart. -/
theorem pictureStep_within {f g : Value → Data} (hagent : ∀ i, v ≠ .agent i) :
    s.pictureStep true f v = s.pictureStep true g v := by
  cases v with
  | agent i => exact absurd rfl (hagent i)
  | _ => rfl

/-! ## What stops the printing -/

/-- The parts of a value in which something that cannot be printed is looked for. -/
def searched (s : Store) (v : Value) : List Value :=
  match v with
  | .list l => s.list l
  | .tuple _ xs => xs
  | .table t => (s.table t).flatMap fun e => [e.1, e.2]
  | .node n => (s.node n).fields.map (·.2)
  | .location _ l c n => [l, c, n]
  | .lint _ source file loc description severity _ => [source, file, loc, description, severity]
  | .agent i =>
    match s.agent? i with
    | some { role := .settings .., .. } => []
    | found => (found.bind (·.own? "name")).toList
  | _ => []

/-- One step of looking for what cannot be printed, given how to look for it in the parts. -/
def printFaultStep (s : Store) (isWithin : Bool) (inner : Value → Option Fault) (v : Value) :
    Option Fault :=
  match v with
  | .missing owner name => if s.hasMissing then some (.missingAttribute owner name) else none
  | .int i => Fault.ofInt? i
  | v => if isWithin then none else (s.searched v).findSome? inner

/-- One step of looking for what cannot be printed, in the same form for values of all kinds. -/
theorem printFaultTo_succ (s : Store) (d : Nat) (within : List Cell) (v : Value) :
    s.printFaultTo (d + 1) within v = s.printFaultStep (v.cell?.elim false within.contains)
      (s.printFaultTo d (v.cell?.toList ++ within)) v := by
  cases v with
  | agent i =>
    rw [printFaultTo, printFaultStep, searched]
    · rcases s.agent? i with _ | ⟨role, notes, parent, backing⟩
      · rfl
      · cases role with
        | settings table policy => exact (ite_self none).symm
        | _ => rfl
    · simp
    · simp
  | float x mark => exact (ite_self none).symm
  | _ => rfl

/-- Nothing is looked at but what is drawn. -/
theorem drawn_of_searched (hx : x ∈ s.searched v) : x ∈ s.drawn v := by
  cases v with
  | table t =>
    obtain ⟨e, he, hx⟩ := List.mem_flatMap.mp hx
    rw [drawn, List.mem_append]
    simp only [List.mem_cons, List.not_mem_nil, or_false] at hx
    rcases hx with rfl | rfl
    · exact Or.inl (List.mem_map_of_mem he)
    · exact Or.inr (List.mem_map_of_mem he)
  | agent i =>
    rw [searched] at hx
    split at hx
    · exact absurd hx (by simp)
    · obtain ⟨a, ha, hname⟩ := Option.bind_eq_some_iff.mp (Option.mem_toList.mp hx)
      exact List.mem_map.mpr ⟨a, Option.mem_toList.mpr ha, by rw [hname]; rfl⟩
  | _ => exact hx

/-- A step of looking for what cannot be printed depends on nothing but the parts that are drawn. -/
theorem printFaultStep_congr {f g : Value → Option Fault} (isWithin : Bool)
    (h : ∀ x ∈ s.drawn v, f x = g x) :
    s.printFaultStep isWithin f v = s.printFaultStep isWithin g v := by
  have hsearched : (s.searched v).findSome? f = (s.searched v).findSome? g := by
    rw [← List.head?_filterMap, ← List.head?_filterMap,
      List.filterMap_congr fun x hx => h x (drawn_of_searched hx)]
  cases v with
  | missing owner name => rfl
  | int i => rfl
  | _ => rw [printFaultStep, printFaultStep, hsearched] <;> simp

/-- A step of looking in two stores, where as much is missing and the same is looked at. -/
theorem printFaultStep_of_searched {t : Store} (hlost : t.hasMissing = s.hasMissing)
    (hsearched : t.searched v = s.searched v) (isWithin : Bool) (inner : Value → Option Fault) :
    t.printFaultStep isWithin inner v = s.printFaultStep isWithin inner v := by
  cases v with
  | missing owner name => rw [printFaultStep, printFaultStep, hlost]
  | int i => rfl
  | _ => rw [printFaultStep, printFaultStep, hsearched] <;> simp

/-- A field of a node is held by it, or null at a place that is cleared. -/
theorem mem_contents_of_field {n : NodeId} {f : String × Value} (h : f ∈ (s.node n).fields) :
    f.2 ∈ s.contents (.node n) ∨ f.2 = .null := by
  unfold node at h
  cases hn : s.node? n with
  | none =>
    rw [hn] at h
    have hbare : f ∈ [("line", Value.null), ("column", .null), ("filename", .null)] := h
    simp only [List.mem_cons, List.not_mem_nil, or_false] at hbare
    rcases hbare with rfl | rfl | rfl <;> exact Or.inr rfl
  | some x =>
    rw [hn] at h
    refine Or.inl ?_
    rw [contents, hn]
    simp only [Option.elim_some, Node.held, List.mem_append]
    exact Or.inl (Or.inl (Or.inl (List.mem_map_of_mem h)))

/-- A part that is drawn is held in full, or in the thing that is entered, or there is nothing to
it. -/
theorem drawn_cases (hc : v.cell? = some c) (hx : x ∈ s.drawn v) :
    x.weight < v.weight ∨ x ∈ s.contents c ∨ x.cell? = none := by
  cases v with
  | list l =>
    cases hc
    exact Or.inr (Or.inl hx)
  | table t =>
    cases hc
    exact Or.inr (Or.inl hx)
  | tuple m xs => exact Or.inl (Nat.lt_succ_of_le (Value.weight_le_of_mem hx))
  | node n =>
    cases hc
    obtain ⟨f, hf, rfl⟩ := List.mem_map.mp hx
    rcases mem_contents_of_field hf with hheld | hnull
    · exact Or.inr (Or.inl hheld)
    · exact Or.inr (Or.inr (by rw [hnull]; rfl))
  | location m l c n =>
    simp only [drawn, List.mem_cons, List.not_mem_nil, or_false] at hx
    refine Or.inl ?_
    rw [Value.weight]
    rcases hx with rfl | rfl | rfl <;> omega
  | lint m source file loc description severity fixable =>
    simp only [drawn, List.mem_cons, List.not_mem_nil, or_false] at hx
    refine Or.inl ?_
    rw [Value.weight]
    rcases hx with rfl | rfl | rfl | rfl | rfl <;> omega
  | agent i =>
    cases hc
    obtain ⟨a, ha, rfl⟩ := List.mem_map.mp hx
    cases hname : a.own? "name" with
    | none => exact Or.inr (Or.inr rfl)
    | some w =>
      refine Or.inr (Or.inl ?_)
      rw [contents, Option.mem_toList.mp ha]
      exact Agent.own?_mem hname
  | _ => simp [drawn] at hx

/-- What has no parts is known by no place and no mark, and so are the names of agents. -/
theorem drawn_of_plain (hv : v.cell? = none) : s.drawn v = [] := by
  cases v <;> first | rfl | exact absurd hv (by simp [Value.cell?])

/-- What has no parts depicts nothing but itself. -/
theorem eq_of_depicts (hv : v.cell? = none) (h : s.Depicts v x) : v = x := by
  rcases Relation.ReflTransGen.cases_head h with heq | ⟨y, hy, _⟩
  · exact heq
  · rw [drawn_of_plain hv] at hy
    exact absurd hy (by simp)

/-- Where no agent is its own name, everything can be drawn to its end. -/
theorem Named.ends (h : s.Named) (v : Value) : s.Ends v := by
  intro i _ hloop
  obtain ⟨x, hx, hrest⟩ := Relation.TransGen.head'_iff.mp hloop
  obtain ⟨a, ha, rfl⟩ := List.mem_map.mp hx
  have hplain : ((a.own? "name").getD .null).cell? = none := by
    cases hname : a.own? "name" with
    | none => rfl
    | some w => exact h i a w (Option.mem_toList.mp ha) hname
  rw [eq_of_depicts hplain hrest] at hplain
  cases hplain

/-- A value ends in another store as well if all that it depicts has the same parts there. -/
theorem Ends.congr {t : Store} (h : s.Ends v)
    (hsame : ∀ x, s.Depicts v x → t.drawn x = s.drawn x) : t.Ends v := by
  have hdown : ∀ {x y}, s.Depicts v x → t.Depicts x y → s.Depicts x y := by
    intro x y hx hxy
    induction hxy using Relation.ReflTransGen.head_induction_on with
    | refl => exact .refl
    | head hz _ ih =>
      rw [hsame _ hx] at hz
      exact .head hz (ih (hx.tail hz))
  intro i hi hloop
  have hi := hdown .refl hi
  obtain ⟨x, hx, hrest⟩ := Relation.TransGen.head'_iff.mp hloop
  rw [hsame _ hi] at hx
  exact h i hi (Relation.TransGen.head'_iff.mpr ⟨x, hx, hdown (hi.tail hx) hrest⟩)

/-! ## The depth that is enough -/

/-- Something that is found out about a value by going down in it, to a depth and inside of some
things: it is a matter of what is found out about the parts that are drawn, and what is inside
itself is not gone into again, agents apart. -/
structure Descent {β : Type} (s : Store) (run : Nat → List Cell → Value → β)
    (step : Bool → (Value → β) → Value → β) : Prop where
  succ : ∀ d within v, run (d + 1) within v =
    step (v.cell?.elim false within.contains) (run d (v.cell?.toList ++ within)) v
  congr : ∀ {v : Value} {f g : Value → β} (isWithin : Bool), (∀ x ∈ s.drawn v, f x = g x) →
    step isWithin f v = step isWithin g v
  within : ∀ {v : Value} {f g : Value → β}, (∀ i, v ≠ .agent i) → step true f v = step true g v

theorem descent_picture (s : Store) : s.Descent s.pictureTo s.pictureStep :=
  ⟨s.pictureTo_succ, pictureStep_congr, pictureStep_within⟩

theorem descent_printFault (s : Store) : s.Descent s.printFaultTo s.printFaultStep := by
  refine ⟨s.printFaultTo_succ, printFaultStep_congr, fun {v f g} _ => ?_⟩
  cases v <;> rfl

namespace Descent

variable {β : Type} {run : Nat → List Cell → Value → β} {step : Bool → (Value → β) → Value → β}

/-- What is known by no place and no mark has no parts. -/
theorem plain (h : s.Descent run step) (hv : v.cell? = none) (d : Nat) :
    run (d + 1) within v = run 1 [] v := by
  rw [h.succ, h.succ, hv]
  exact h.congr false fun x hx => absurd hx (by simp [drawn_of_plain hv])

/-- To a depth of more than the room that is left and the value together nothing else is found than
one step further down. An agent that is gone into is not met again. -/
theorem deeper (h : s.Descent run step) :
    ∀ {d : Nat} {within : List Cell} {v : Value}, s.Ends v →
      (∀ i, within.contains (.agent i) = true →
        Relation.TransGen (fun v x => x ∈ s.drawn v) (.agent i) v) →
      s.room within + v.weight < d → run (d + 1) within v = run d within v
  | 0, _, _, _, _, hd => absurd hd (Nat.not_lt_zero _)
  | d + 1, within, v, hends, hpath, hd => by
    have hweight : 0 < v.weight := by cases v <;> simp [Value.weight]
    cases hc : v.cell? with
    | none => exact (h.plain hc (d + 1)).trans (h.plain hc d).symm
    | some c =>
      rw [h.succ, h.succ, hc]
      simp only [Option.elim_some, Option.toList_some, List.singleton_append]
      have hplain : ∀ x : Value, x.cell? = none →
          run (d + 1) (c :: within) x = run d (c :: within) x := by
        intro x hx
        obtain ⟨k, hk⟩ := Nat.exists_eq_add_of_le' (show 1 ≤ d by omega)
        rw [hk]
        exact (h.plain hx (k + 1)).trans (h.plain hx k).symm
      have hroom := s.room_cons_le c within
      cases hin : within.contains c with
      | true =>
        -- an agent that is being gone into would be met again, and no value does that
        refine h.within fun i hi => ?_
        rw [hi] at hc hends hpath
        cases hc
        exact hends i .refl (hpath i hin)
      | false =>
        refine h.congr _ fun x hx => ?_
        have hends' := hends.drawn hx
        have hpath' : ∀ i, (c :: within).contains (.agent i) = true →
            Relation.TransGen (fun v x => x ∈ s.drawn v) (.agent i) x := by
          intro i hi
          rw [List.contains_cons, Bool.or_eq_true, beq_iff_eq] at hi
          rcases hi with rfl | hi
          · rw [← Value.eq_agent hc]
            exact .single hx
          · exact (hpath i hi).tail hx
        -- a step down takes from the weight of the value, or from the room that is left
        rcases drawn_cases hc hx with hinner | hheld | hx
        · exact h.deeper hends' hpath' (by omega)
        · have hleft := room_of_mem hin hheld
          exact h.deeper hends' hpath' (by omega)
        · exact hplain x hx

/-- To any depth that is great enough the same is found. -/
theorem enough (h : s.Descent run step) (hends : s.Ends v) {d : Nat}
    (hd : s.weight + v.weight < d) : run d [] v = run (s.weight + v.weight + 1) [] v := by
  have hroom := s.room_nil_le
  obtain ⟨k, rfl⟩ := Nat.exists_eq_add_of_le hd
  induction k with
  | zero => rfl
  | succ k ih =>
    rw [← Nat.add_assoc, h.deeper hends (fun i hi => absurd hi (by simp)) (by omega)]
    exact ih (by omega)

section Alike

variable {t : Store} {run' : Nat → List Cell → Value → β} {step' : Bool → (Value → β) → Value → β}
  {P : Value → Prop} (h : s.Descent run step) (h' : t.Descent run' step')
  (hparts : ∀ {v}, P v → ∀ x ∈ s.drawn v, P x)
  (hzero : ∀ within v, run' 0 within v = run 0 within v)
  (hstep : ∀ isWithin inner {v}, P v → step' isWithin inner v = step isWithin inner v)
include h h' hparts hzero hstep

/-- In two stores the same is found out about values that are alike, and whose parts are. -/
theorem alike : ∀ (d : Nat) (within : List Cell) {v : Value}, P v →
    run' d within v = run d within v
  | 0, within, v, _ => hzero within v
  | d + 1, within, v, hv => by
    rw [h'.succ, h.succ, hstep _ _ hv]
    exact h.congr _ fun x hx => alike d _ (hparts hv x hx)

/-- Going down all the way is no exception, although the stores differ in weight. -/
theorem alike_all (hends : s.Ends v) (hends' : t.Ends v) (hv : P v) :
    run' (t.weight + v.weight + 1) [] v = run (s.weight + v.weight + 1) [] v := by
  -- to the greater of both depths, both go down all the way
  have hall := h.enough hends
    (Nat.lt_succ_of_le (Nat.le_max_left (s.weight + v.weight) (t.weight + v.weight)))
  have hall' := h'.enough hends'
    (Nat.lt_succ_of_le (Nat.le_max_right (s.weight + v.weight) (t.weight + v.weight)))
  rw [← hall, ← hall']
  exact h.alike h' hparts hzero hstep _ _ hv

end Alike

end Descent

end Store

end SheetLint
