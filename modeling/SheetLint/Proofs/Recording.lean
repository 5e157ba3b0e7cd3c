import SheetLint.Proofs.Twins

/-!
# What two runs record

Recording a lint at twins, or at locations that differ in nothing but their marks, adds the same to
what both runs recorded (`tallies_record`): the line and column, the file and the severity are read
alike. The children of twins are twins in turn (`tallies_childrenOf`), so the same of them are found
to equal an earlier one (`tallies_recordDuplicates`).
-/

namespace SheetLint

open Store

/-- Where nothing was lost, it can be said of everything whether it is among some values. -/
theorem Store.isAmong_of_unbacked {s : Store} (hs : s.hasBacked = false) (depth : Nat) (v : Value) :
    ∀ xs : List Value, s.isAmong depth v xs = .ok (xs.any fun x => s.sameMemberTo depth x v) := by
  intro xs
  induction xs with
  | nil => rfl
  | cons x xs ih =>
    rw [isAmong, trySameMember, equalityFault?_of_unbacked hs, List.any_cons]
    by_cases hone : x.identical v = true
    · simp [hone, sameMemberTo]
    · cases hsame : s.sameMemberTo depth x v <;> simp [hone, ih]

/-- A line that is there, and a column that may not be. -/
theorem Store.lineAndColumn_node {s : Store} {n : NodeId} {line column : Value}
    (h : s.lineAndColumn (.node n) = .ok (line, column)) :
    line = (s.node n).position.line ∧ line.isNull = false ∧
      column = if (s.node n).position.column.isNull then .int 1
        else (s.node n).position.column := by
  have hpresent : ∀ {v w : Value} {name : String},
      s.orMissing (.node n) name (some v) = .ok w → v = w := by
    intro v w name hv
    cases v <;> simp_all [orMissing]
  unfold lineAndColumn at h
  rw [getAttribute_line, getAttribute_column] at h
  split at h
  · simp at h
  · split at h
    · simp at h
    · split at h <;> simp at h
  · rename_i l hnull hl
    split at h
    · simp at h
    · rename_i c hc
      cases h
      refine ⟨(hpresent hl).symm, ?_, by rw [hpresent hc]⟩
      cases line <;> simp_all [Value.isNull]

namespace Job

open Linter

variable {J : Job} {s t : Store} {n m : NodeId} {spot : Spot} {v w : Value}

theorem holds_linter (J : Job) : J.start.Holds (.agent J.linter) := by
  obtain ⟨a, _, ha, _⟩ := J.works.isLinter
  intro c hc
  obtain rfl : c = .agent J.linter := by simpa [Value.cells] using hc
  exact (Array.getElem?_eq_some_iff.mp ha).1

theorem Working.fileOf_eq (h : J.Working s) (hv : s.fileOf J.linter = .ok v) :
    v = J.file ∧ v.isMissing = false := by
  have hfile := toOption_orMissing s (.agent J.linter) "_filename"
    ((s.linter? J.linter).map Linter.file)
  unfold fileOf at hv
  rw [hv, h.file] at hfile
  obtain ⟨hfound, hpresent⟩ := Option.filter_eq_some_iff.mp hfile.symm
  exact ⟨(Option.some.inj hfound).symm, by simpa using hpresent⟩

/-- What is there of a location that a node ends up with was there in parts. -/
theorem final_part {p : Position} (h : J.start.Final J.root n p) :
    ∀ part, part = p.line ∨ part = p.column → part.isNull = false → J.Part part := by
  have hbelow := h.isBelow
  induction h with
  | root => exact J.located _ .refl
  | own _ _ _ _ => exact J.located _ hbelow
  | @filled n c p hn _ _ ih =>
    have hown := J.located c hbelow
    have hcontainer := ih hn.isBelow
    unfold Position.completed
    split
    · rintro part (rfl | rfl) hpart
      · exact hcontainer _ (Or.inl rfl) hpart
      · by_cases hnull : (J.start.node c).position.column.isNull = true
        · simp only [hnull, if_true] at hpart ⊢
          exact hcontainer _ (Or.inr rfl) hpart
        · simp only [if_neg hnull] at hpart ⊢
          exact hown _ (Or.inr rfl) hpart
    · exact hown

/-- The line and column that a lint gets at a node that has arrived. -/
theorem part_of_standing (hn : J.start.Standing J.root s n spot) {line column : Value}
    (h : s.lineAndColumn (.node n) = .ok (line, column)) : J.Part line ∧ J.Part column := by
  have hparts : ∀ part, part = (s.node n).position.line ∨ part = (s.node n).position.column →
      part.isNull = false → J.Part part := by
    cases spot with
    | listed l =>
      obtain ⟨rfl, hfinal, _⟩ := hn
      exact final_part hfinal
    | made k name =>
      obtain ⟨_, _, p, hp, hnode⟩ := hn
      rw [hnode]
      exact final_part hp
  obtain ⟨hline, hnull, hcolumn⟩ := lineAndColumn_node h
  refine ⟨hparts _ (Or.inl hline) hnull, ?_⟩
  rw [hcolumn]
  split
  · exact J.one
  · rename_i hpresent
    exact hparts _ (Or.inr rfl) (by simpa using hpresent)

namespace Beside

variable (h : J.Beside s t)
include h

/-- What is the same in all stores that follow is the same in both. -/
theorem toOption_eq {α : Type} {f : Store → Except Fault α}
    (hf : ∀ u, J.start.Follows u → (f u).toOption = (f J.start).toOption) :
    (f s).toOption = (f t).toOption :=
  (hf s h.left.settling.follows).trans (hf t h.right.settling.follows).symm

theorem toOption_callable (method : String) :
    (s.callable (.agent J.linter) method).toOption =
      (t.callable (.agent J.linter) method).toOption :=
  h.toOption_eq (f := fun u => u.callable (.agent J.linter) method)
    fun _ hu => toOption_callable_agent hu J.holds_linter method

theorem toOption_fileOf : (s.fileOf J.linter).toOption = (t.fileOf J.linter).toOption := by
  unfold fileOf
  rw [toOption_orMissing, toOption_orMissing, h.left.file, h.right.file]

/-- An edit that records nothing and depends on nothing that can change tallies with itself. -/
theorem tallies_sameResult {α : Type} {x : Edit α} (hx : Edit.Moves J.Still x)
    (hsame : ∀ u, J.start.Follows u → Edit.SameResult x J.start u) :
    J.Tallies s t x x fun a b s' t' => a = b ∧ x.perform s = (.ok a, s') ∧
      x.perform t = (.ok b, t') :=
  tallies_of_still h hx hx
    ((hsame s h.left.settling.follows).trans (hsame t h.right.settling.follows).symm)

end Beside

/-! ## Lints -/

/-- Two locations that were the last things made, and differ at most in their marks. -/
def SamePlace (J : Job) (s t : Store) (v w : Value) : Prop :=
  ∃ mark mark' line column length, v = .location mark line column length ∧
    w = .location mark' line column length ∧ s.marks = mark + 1 ∧ t.marks = mark' + 1 ∧
      ∀ part ∈ [line, column, length], J.Part part

/-- What two runs can record the same lint at. -/
def Targets (J : Job) (s t : Store) (v w : Value) : Prop :=
  (∃ n m spot, v = .node n ∧ w = .node m ∧ J.Twins s t n m spot) ∨ J.SamePlace s t v w

theorem tallies_newLocation (h : J.Beside s t) {line column length : Value}
    (hparts : ∀ part ∈ [line, column, length], J.Part part) :
    J.Tallies s t (Edit.newLocation line column length) (Edit.newLocation line column length)
      fun v w s' t' => J.SamePlace s' t' v w :=
  tallies_results h ((quiet_still J).mark s) ((quiet_still J).mark t) rfl rfl
    ⟨s.marks, t.marks, line, column, length, rfl, rfl, rfl, rfl, hparts⟩

/-- Both runs place a lint at the same location of twins, but for its mark. -/
theorem tallies_place (h : J.Beside s t) (hvw : J.Targets s t v w) :
    J.Tallies s t (place v) (place w) fun v w s' t' => J.SamePlace s' t' v w := by
  rcases hvw with ⟨n, m, spot, rfl, rfl, htwins⟩ | hplace
  · refine tallies_tryRead_bind h htwins.toOption_lineAndColumn fun ⟨line, column⟩ hfound => ?_
    obtain ⟨hline, hcolumn⟩ := part_of_standing htwins.left hfound
    have hparts : ∀ part ∈ [line, column, .int 1], J.Part part := by
      simp only [List.mem_cons, List.not_mem_nil, or_false]
      rintro part (rfl | rfl | rfl)
      · exact hline
      · exact hcolumn
      · exact J.one
    exact tallies_newLocation h hparts
  · obtain ⟨_, _, _, _, _, rfl, rfl, _⟩ := id hplace
    exact tallies_pure h hplace

/-- What is asked of the settings takes no mark. -/
theorem marks_severity (s : Store) (i : AgentId) :
    ((severity i).perform s).2.marks = s.marks :=
  (Asking.mk (R := fun s t => t.marks = s.marks) ⟨fun _ => rfl, fun h h' => h'.trans h⟩
    fun _ _ _ => rfl).moves_severity i s

/-- Both runs ask for the same severity, which is the one that the linter had to begin with. -/
theorem tallies_severity (h : J.Beside s t) :
    J.Tallies s t (severity J.linter) (severity J.linter) fun a b s' t' =>
      a = b ∧ ((severity J.linter).perform J.start).1.toOption = some a ∧
        s'.marks = s.marks ∧ t'.marks = t.marks := by
  have hsame : ∀ u, J.start.Follows u → Edit.SameResult (severity J.linter) J.start u :=
    fun u hu => severity_sameResult J.sound.closed J.sound.unbacked hu J.holds_linter
  refine (h.tallies_sameResult ((quiet_still J).moves_severity _) hsame).imp ?_
  rintro a b s' t' ⟨hab, hs, ht⟩
  have hstart := hsame s h.left.settling.follows
  have hmarks := marks_severity s J.linter
  have hmarks' := marks_severity t J.linter
  unfold Edit.SameResult at hstart
  rw [hs] at hstart hmarks
  rw [ht] at hmarks'
  exact ⟨hab, hstart.symm, hmarks, hmarks'⟩

/-- A lint that is made at the last location is put at the end of what is recorded. -/
theorem Working.record (h : J.Working s) {r : Report} (hr : J.Says r) {mark : Nat}
    (hmark : s.marks = mark + 1) : ∃ s',
    (do let lint ← Edit.newLint r.linter r.file (.location mark r.line r.column r.length)
          r.description r.severity r.fixable
        Edit.change fun s => s.append (s.lintsOf J.linter) lint
        return lint : Edit Value).perform s = (.ok (r.lint mark), s') ∧
      J.Working s' ∧ J.start.Onward J.root s s' ∧ J.lints s' = J.lints s ++ [r.lint mark] ∧
      J.Made s.marks s'.marks [r.lint mark] := by
  obtain ⟨l, hl, hfirst, hlast⟩ := h.lints
  let u : Store := { s with marks := s.marks + 1 }
  let s' := u.setList l (s.list l ++ [r.lint mark])
  have happend : u.append (u.lintsOf J.linter) (r.lint mark) = .ok s' := by
    rw [show u.lintsOf J.linter = .list l from hl]
    rfl
  have hlints : s'.lintsOf J.linter = .list l := hl
  have hitems : s'.list l = s.list l ++ [r.lint mark] := by
    rw [list_setList, if_pos ⟨rfl, hlast⟩]
  refine ⟨s', ?_, ?_, ?_, ?_, ?_⟩
  · have hlint : (Edit.newLint r.linter r.file (.location mark r.line r.column r.length)
        r.description r.severity r.fixable).perform s = (.ok (r.lint mark), u) := by
      rw [Report.lint, ← hmark]
      rfl
    rw [Edit.perform_bind_ok hlint, Edit.perform_bind, Edit.perform_change, happend]
    rfl
  · refine h.of_rest rfl rfl rfl ?_ ?_
    · exact (h.settling.follows.extends_.of_rest rfl rfl rfl : J.start.Extends u).setList hfirst _
    · simp [s', u, Store.setList]
  · exact Onward.of_nodes fun _ => rfl
  · unfold Job.lints
    rw [hl, hlints]
    exact hitems
  · refine .cons (by omega) hr (.nil ?_)
    show mark + 2 ≤ s.marks + 1
    omega

/-- Both runs record a lint that says the same. -/
theorem tallies_record (h : J.Beside s t) (hvw : J.Targets s t v w) {description : Value}
    (hdescription : J.start.Holds description) (fixable : Bool) :
    J.Tallies s t (record J.linter v description fixable) (record J.linter w description fixable)
      fun _ _ _ _ => True := by
  unfold record
  refine tallies_tryRead_bind h (h.toOption_callable _) fun _ _ => ?_
  refine tallies_bind (tallies_place h hvw) fun location location' s t hahead hplace => ?_
  obtain ⟨mark, mark', line, column, length, rfl, rfl, hmark, hmark', hparts⟩ := hplace
  refine tallies_tryRead_bind hahead.beside hahead.beside.toOption_fileOf fun file hfile => ?_
  refine tallies_bind (tallies_severity hahead.beside) ?_
  rintro sev _ s₁ t₁ hahead₁ ⟨rfl, hsev, hmarks, hmarks'⟩
  let r : Report :=
    { linter := .agent J.linter, file, line, column, length, description, severity := sev, fixable }
  obtain ⟨hfile, hpresent⟩ := hahead.beside.left.fileOf_eq hfile
  have hr : J.Says r := ⟨rfl, hfile, hpresent, hparts, hdescription, hsev⟩
  obtain ⟨s₂, hs₂, hleft, hon, hlints, hmade⟩ :=
    hahead₁.beside.left.record hr (hmarks.trans hmark)
  obtain ⟨t₂, ht₂, hright, hon', hlints', hmade'⟩ :=
    hahead₁.beside.right.record hr (hmarks'.trans hmark')
  unfold Tallies
  rw [hs₂, ht₂]
  refine ⟨⟨⟨hleft, hright, ?_⟩, ⟨hon, _, hlints, hmade⟩, ⟨hon', _, hlints', hmade'⟩⟩, trivial⟩
  rw [hlints, hlints', List.map_append, List.map_append, hahead₁.beside.same]
  rfl

/-! ## Children -/

/-- Nodes of two stores in pairs that arrived at spots below a spot; the same of them are one. -/
structure Pairs (J : Job) (s t : Store) (spot : Spot) (ps : List (NodeId × NodeId)) : Prop where
  twins : ∀ p ∈ ps, ∃ spot' ∈ J.start.spots spot, J.Twins s t p.1 p.2 spot'
  apart : ps.Pairwise fun p q => p.1 = q.1 ↔ p.2 = q.2

theorem Pairs.ahead {s' t' : Store} {ps : List (NodeId × NodeId)} (h : J.Pairs s t spot ps)
    (hahead : J.Ahead s t s' t') : J.Pairs s' t' spot ps where
  twins p hp := by
    obtain ⟨spot', hspot', htwins⟩ := h.twins p hp
    exact ⟨spot', hspot', htwins.ahead hahead⟩
  apart := h.apart

theorem Pairs.filter {ps : List (NodeId × NodeId)} (h : J.Pairs s t spot ps)
    (keep : NodeId × NodeId → Bool) : J.Pairs s t spot (ps.filter keep) where
  twins p hp := h.twins p (List.mem_of_mem_filter hp)
  apart := h.apart.filter keep

/-- Twins that were there from the start are one node. -/
theorem Twins.eq_of_lt (h : J.Twins s t n m spot) (hn : n < J.start.nodes.size) : n = m := by
  obtain ⟨hleft, hright⟩ := h
  cases spot with
  | listed l => exact hleft.1.trans hright.1.symm
  | made k name => exact absurd hn (Nat.not_lt.mpr hleft.1)

theorem Twins.one_of_one {n' m' : NodeId} {spot' : Spot} (h : J.Twins s t n m spot)
    (h' : J.Twins s t n' m' spot') (hlt : n = n' → n < J.start.nodes.size) (hone : n = n') :
    m = m' := by
  have hn := hlt hone
  rw [← h.eq_of_lt hn, ← h'.eq_of_lt (hone ▸ hn)]
  exact hone

/-- What arrived at the same spots goes together in pairs. -/
theorem pairs_of_standing {cs ds : List NodeId} {spots : List Spot}
    (hspots : ∀ spot' ∈ spots, spot' ∈ J.start.spots spot)
    (hcs : List.Forall₂ (J.start.Standing J.root s) cs spots)
    (hds : List.Forall₂ (J.start.Standing J.root t) ds spots)
    (hcpair : cs.Pairwise fun a b => a = b → a < J.start.nodes.size)
    (hdpair : ds.Pairwise fun a b => a = b → a < J.start.nodes.size) :
    ∃ ps, J.Pairs s t spot ps ∧ cs = ps.map Prod.fst ∧ ds = ps.map Prod.snd := by
  induction hcs generalizing ds with
  | nil =>
    cases hds
    exact ⟨[], ⟨fun _ hp => absurd hp (by simp), .nil⟩, rfl, rfl⟩
  | @cons c spot' cs spots hc _ ih =>
    cases hds with
    | @cons d _ ds _ hd hds =>
      obtain ⟨hcs', hcpair⟩ := List.pairwise_cons.mp hcpair
      obtain ⟨hds', hdpair⟩ := List.pairwise_cons.mp hdpair
      obtain ⟨ps, hps, rfl, rfl⟩ :=
        ih (fun _ h => hspots _ (List.mem_cons_of_mem _ h)) hds hcpair hdpair
      have htwins : J.Twins s t c d spot' := ⟨hc, hd⟩
      refine ⟨(c, d) :: ps, ⟨fun p hp => ?_, .cons (fun q hq => ?_) hps.apart⟩, rfl, rfl⟩
      · rcases List.mem_cons.mp hp with rfl | hp
        · exact ⟨spot', hspots _ (List.mem_cons_self ..), htwins⟩
        · exact hps.twins p hp
      · obtain ⟨spot'', _, htwins'⟩ := hps.twins q hq
        exact ⟨htwins.one_of_one htwins' (hcs' _ (List.mem_map_of_mem hq)),
          htwins.symm.one_of_one htwins'.symm (hds' _ (List.mem_map_of_mem hq))⟩

/-- A run goes on while children are computed. -/
theorem Working.children (h : J.Working s) (hn : J.start.Standing J.root s n spot)
    (policy : ParentPolicy) :
    ∃ cs s', (Edit.children n policy).perform s = (.ok cs, s') ∧ J.Still s s' ∧
      List.Forall₂ (J.start.Standing J.root s') cs (J.start.spots spot) ∧
      cs.Pairwise fun a b => a = b → a < J.start.nodes.size := by
  obtain ⟨cs, s', hcs, hset, hon, hstanding, hpair⟩ :=
    children_arrive J.sound.closed J.tree J.sound.present h.settling hn policy
  obtain ⟨hagents, hmarks⟩ := agents_marks_children s n policy
  have hextends := children_extends (.refl s) n policy
  rw [hcs] at hagents hextends hmarks
  refine ⟨cs, s', hcs, fun _ => ⟨?_, hon, ?_, Nat.le_of_eq hmarks.symm⟩, hstanding, hpair⟩
  · refine ⟨hset, ?_, ?_⟩
    · obtain ⟨l, hl, hfirst, hlast⟩ := h.lints
      exact ⟨l, (lintsOf_congr hagents _).trans hl, hfirst, Nat.lt_of_lt_of_le hlast hextends.lists⟩
    · have hfile := h.file
      unfold linter? agent? at hfile ⊢
      rw [hagents]
      exact hfile
  · obtain ⟨l, hl, _, hlast⟩ := h.lints
    unfold Job.lints
    rw [lintsOf_congr hagents, hl]
    exact hextends.list l hlast

/-- The children of twins are twins. -/
theorem tallies_childrenOf (h : J.Beside s t) (hn : J.Twins s t n m spot) :
    J.Tallies s t (childrenOf J.linter (.node n)) (childrenOf J.linter (.node m))
      fun cs ds s' t' => ∃ ps, J.Pairs s' t' spot ps ∧ cs = ps.map Prod.fst ∧
        ds = ps.map Prod.snd := by
  unfold childrenOf
  refine tallies_tryRead_bind h (hn.toOption_attribute h (by decide)) fun _ _ => ?_
  refine tallies_bind (h.tallies_sameResult ((quiet_still J).moves_policy _)
    fun u hu => policy_sameResult J.sound.closed hu J.holds_linter) ?_
  rintro policy _ s t hahead ⟨rfl, _⟩
  have hn := hn.ahead hahead
  obtain ⟨cs, s', hcs, hstill, hstanding, hpair⟩ :=
    hahead.beside.left.children hn.left policy
  obtain ⟨ds, t', hds, hstill', hstanding', hpair'⟩ :=
    hahead.beside.right.children hn.right policy
  exact tallies_results hahead.beside hstill hstill' hcs hds
    (pairs_of_standing (fun _ h => h) hstanding hstanding' hpair hpair')

/-! ## Duplicates -/

/-- Rounds of two loops that tally one by one tally as a whole. -/
theorem tallies_forM {ι κ : Type} {f g : κ → Edit PUnit} {a b : ι → κ} :
    ∀ (ps : List ι) {s t : Store}, J.Beside s t →
    (∀ p ∈ ps, ∀ s' t', J.Ahead s t s' t' →
      J.Tallies s' t' (f (a p)) (g (b p)) fun _ _ _ _ => True) →
      J.Tallies s t ((ps.map a).forM f) ((ps.map b).forM g) fun _ _ _ _ => True
  | [], _, _, h, _ => tallies_pure h trivial
  | p :: ps, s, t, h, hround => by
    rw [List.map_cons, List.map_cons, Edit.forM_cons, Edit.forM_cons]
    have hfirst := hround p (List.mem_cons_self ..) s t (.refl h)
    refine tallies_bind hfirst fun _ _ s' t' hahead _ => ?_
    exact tallies_forM ps hahead.beside fun q hq s'' t'' hahead' =>
      hround q (List.mem_cons_of_mem _ hq) s'' t'' (hahead.trans hahead')

/-- The same of the nodes in pairs equal an earlier one. -/
theorem Pairs.isAmong_eq (h : J.Beside s t) {ps : List (NodeId × NodeId)}
    (hps : J.Pairs s t spot ps) {p : NodeId × NodeId} {k : Nat} (hp : ps[k]? = some p) :
    s.isAmong (s.depthAmong ((ps.map Prod.fst).map .node)) (.node p.1)
        (((ps.map Prod.fst).take k).map .node) =
      t.isAmong (t.depthAmong ((ps.map Prod.snd).map .node)) (.node p.2)
        (((ps.map Prod.snd).take k).map .node) := by
  have hmem := List.mem_of_getElem? hp
  have hany : ∀ (r : Value → Bool) (side : NodeId × NodeId → NodeId),
      (((ps.map side).take k).map .node).any r = (ps.take k).any fun q => r (.node (side q)) := by
    intro r side
    rw [← List.map_take, List.map_map, List.any_map]
    rfl
  rw [isAmong_of_unbacked h.left.unbacked, isAmong_of_unbacked h.right.unbacked, hany, hany]
  congr 1
  rw [Bool.eq_iff_iff, List.any_eq_true, List.any_eq_true]
  refine exists_congr fun q => and_congr_right fun hq => ?_
  have hqs := List.mem_of_mem_take hq
  obtain ⟨spot₁, _, htwins⟩ := hps.twins q hqs
  obtain ⟨spot₂, _, htwins'⟩ := hps.twins p hmem
  have hone : q.1 = p.1 ↔ q.2 = p.2 := by
    obtain ⟨j, hj, rfl⟩ := List.mem_take_iff_getElem.mp hq
    obtain ⟨hk, rfl⟩ := List.getElem?_eq_some_iff.mp hp
    have hjk := Nat.lt_of_lt_of_le hj (Nat.min_le_left ..)
    exact List.pairwise_iff_getElem.mp hps.apart j k _ hk hjk
  simp only [sameMemberTo, Bool.or_eq_true]
  refine or_congr ?_ ?_
  · simpa [Value.identical, Value.cell?] using hone
  · rw [sameTo_depthAmong, sameTo_depthAmong]
    · exact htwins.exists_sameTo h htwins' hone
    all_goals exact List.mem_map_of_mem (List.mem_map_of_mem ‹_›)

/-- Both runs record the same duplicates. -/
theorem tallies_recordDuplicates (h : J.Beside s t) {ps : List (NodeId × NodeId)}
    (hps : J.Pairs s t spot ps) :
    J.Tallies s t (recordDuplicates J.linter (ps.map Prod.fst))
      (recordDuplicates J.linter (ps.map Prod.snd)) fun _ _ _ _ => True := by
  unfold recordDuplicates repeats
  refine tallies_get_bind ?_
  simp only [List.zipIdx_map, List.map_map]
  refine tallies_forM _ h fun ⟨p, k⟩ hp s' t' hahead => ?_
  have hsame := hps.isAmong_eq h (List.mk_mem_zipIdx_iff_getElem?.mp hp)
  rw [List.map_map, List.map_map] at hsame
  obtain ⟨spot', _, htwins⟩ := hps.twins p (List.fst_mem_of_mem_zipIdx hp)
  refine tallies_tryRead_bind hahead.beside (congrArg Except.toOption hsame) fun isRepeat _ => ?_
  cases isRepeat with
  | false => exact tallies_pure hahead.beside trivial
  | true =>
    have htarget : J.Targets s' t' (.node p.1) (.node p.2) :=
      Or.inl ⟨p.1, p.2, spot', rfl, rfl, htwins.ahead hahead⟩
    exact tallies_bind (tallies_record hahead.beside htarget (.of_cells rfl) false)
      fun _ _ _ _ hahead _ => tallies_pure hahead.beside trivial

end Job

end SheetLint
