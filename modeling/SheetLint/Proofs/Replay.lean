import SheetLint.Proofs.Recording

/-!
# The same run from another store

Two runs of one linter, over one document, from two stores in which the document settles, go the
same way: at twins they do the same actions, come to the same children and record the same. The
induction follows the document down, with one case for each action; `Job.Alike` is what it carries.

So the lints of a run do not depend on the passes that went before (`run_after_passes`).
-/

namespace SheetLint

open Store

/-- What is no matter of parents and not made anew is simply read. -/
theorem Edit.attributeOf_node {n : NodeId} {name : String} (hname : name ∉ Action.foreignNames) :
    Edit.attributeOf (.node n) name = Edit.tryRead (·.getAttribute (.node n) name) := by
  simp only [Action.foreignNames, List.mem_append, List.mem_cons, List.not_mem_nil, or_false,
    not_or] at hname
  obtain ⟨_, hdict, hmatch, hannotations, hdataclass⟩ := hname
  have hfresh : ∀ s : Store, s.fresh? (.node n) name = none := by
    intro s
    simp only [fresh?, nodeFresh?]
    split
    · exact absurd rfl hdict
    · exact absurd rfl hmatch
    · exact absurd rfl hannotations
    · exact absurd rfl hdataclass
    · rfl
  funext s
  unfold Edit.attributeOf
  simp only [hfresh]
  show Edit.perform _ s = Edit.perform _ s
  rw [Edit.perform_bind_ok (Edit.perform_get s)]
  split
  · exact absurd rfl hdict
  · simp_all
  · rfl

namespace Job

open Linter

variable {J : Job} {s t : Store} {n m : NodeId} {spot : Spot}

/-- Two edits tally wherever two nodes have arrived at a spot. -/
def Alike (J : Job) (spot : Spot) (n m : NodeId) (x y : Edit Unit) : Prop :=
  ∀ ⦃s t⦄, J.Beside s t → J.Twins s t n m spot → J.Tallies s t x y fun _ _ _ _ => True

/-! ## Actions -/

/-- Both runs make the same location of the same items, but for its mark. -/
theorem tallies_locationOfItems (h : J.Beside s t) {v : Value} (hv : J.start.Holds v)
    (hparts : ∀ parts, J.start.items v = .ok parts → ∀ x ∈ parts, J.Part x) :
    J.Tallies s t (Edit.locationOfItems v) (Edit.locationOfItems v)
      fun v w s' t' => J.SamePlace s' t' v w := by
  have hitems : ∀ u, J.start.Follows u →
      (u.items v).toOption = (J.start.items v).toOption := fun u hu => by
    cases v with
    | list l => rw [items, items, hu.extends_.list l (hv (.list l) (by simp [Value.cells]))]
    | table k => rw [items, items, hu.extends_.table k (hv (.table k) (by simp [Value.cells]))]
    | _ => rfl
  unfold Edit.locationOfItems
  refine tallies_get_bind ?_
  have hs := hitems s h.left.settling.follows
  have ht := hitems t h.right.settling.follows
  rcases fail_or_agree (hs.trans ht.symm) with ⟨_, _, hs', ht'⟩ | ⟨parts, hs', ht'⟩
  · rw [hs', ht']
    exact tallies_throw _ _
  · have hstart : J.start.items v = .ok parts := by
      rw [hs'] at hs
      exact toOption_eq_some.mp hs.symm
    have hpart : ∀ k : Nat, J.Part ((parts[k]?).getD (.int 1)) := by
      intro k
      cases hk : parts[k]? with
      | none => exact J.one
      | some x => exact hparts parts hstart x (List.mem_of_getElem? hk)
    rw [hs', ht']
    simp only [Edit.locationOfParts]
    split
    · exact tallies_throw _ _
    · refine tallies_newLocation h fun part hmem => ?_
      simp only [List.mem_cons, List.not_mem_nil, or_false] at hmem
      rcases hmem with rfl | rfl | rfl <;> exact hpart _

/-- What was there from the start is compared alike. -/
theorem Beside.same_eq (h : J.Beside s t) {v w : Value} (hv : J.start.Holds v)
    (hw : J.start.Holds w) : s.same v w = t.same v w := by
  rw [same_extends J.sound.closed h.left.settling.follows.extends_ hv hw,
    same_extends J.sound.closed h.right.settling.follows.extends_ hv hw]

/-- Both runs do more, or neither does. -/
theorem tallies_ifSame (h : J.Beside s t) {v w : Value} (hv : J.start.Holds v)
    (hw : J.start.Holds w) {x y : Edit Unit} (hxy : J.Tallies s t x y fun _ _ _ _ => True) :
    J.Tallies s t (do if ← Edit.read (·.same v w) then x) (do if ← Edit.read (·.same v w) then y)
      fun _ _ _ _ => True := by
  refine tallies_read_bind ?_
  have hsame := h.same_eq hv hw
  cases ht : t.same v w with
  | true =>
    rw [ht] at hsame
    simpa only [hsame, if_true] using hxy
  | false =>
    rw [ht] at hsame
    simpa only [hsame, Bool.false_eq_true, if_false] using tallies_pure h trivial

mutual

/-- Plain actions at twins tally, if the ways of going on below them do. -/
theorem tallies_act {down down' : Value → Edit Unit}
    (hdown : J.Alike spot n m (down (.node n)) (down' (.node m))) :
    ∀ {a : Action}, a.Plain J.start J.Part →
      J.Alike spot n m (act J.linter down (.node n) a) (act J.linter down' (.node m) a)
  | .lint description none fixable, ha, s, t, h, hn => by
    rw [Action.Plain] at ha
    rw [act, act, pure_bind, pure_bind]
    refine tallies_bind (tallies_record h (Or.inl ⟨n, m, spot, rfl, rfl, hn⟩) ha.1 fixable) ?_
    exact fun _ _ _ _ hahead _ => tallies_pure hahead.beside trivial
  | .lint description (some parts) fixable, ha, s, t, h, hn => by
    rw [Action.Plain] at ha
    obtain ⟨hdescription, hplace⟩ := ha
    obtain ⟨hheld, hparts⟩ := hplace parts rfl
    rw [act, act]
    refine tallies_bind (tallies_locationOfItems h hheld hparts) fun v w s t hahead hplace => ?_
    refine tallies_bind (tallies_record hahead.beside (Or.inr hplace) hdescription fixable) ?_
    exact fun _ _ _ _ hahead _ => tallies_pure hahead.beside trivial
  | .descend, _, s, t, h, hn => by
    rw [act, act]
    exact hdown h hn
  | .whenAttribute name expected body, ha, s, t, h, hn => by
    rw [Action.Plain] at ha
    obtain ⟨hname, hexpected, hbody⟩ := ha
    have hparents : name ∉ parentNames := fun hmem => hname (List.mem_append_left _ hmem)
    rw [act, act, Edit.attributeOf_node hname, Edit.attributeOf_node hname]
    refine tallies_tryRead_bind h (hn.toOption_attribute h hparents) fun found hfound => ?_
    refine tallies_tryRead_bind h rfl fun wanted hwanted => ?_
    exact tallies_ifSame h (h.left.attribute_held hn.left hparents hfound)
      (hexpected wanted hwanted) (tallies_actAll hdown hbody h hn)
  | .whenParent kind body, ha, s, t, h, hn => by
    rw [Action.Plain] at ha
    rw [act, act]
    rcases hn.parent h with ⟨hs, ht⟩ | ⟨k, hk, hs, ht⟩
    · refine tallies_tryRead_bind h (by rw [hs, ht]) fun parent hparent => ?_
      obtain rfl : .null = parent := Except.ok.inj (hs.symm.trans hparent)
      exact tallies_pure h trivial
    · refine tallies_tryRead_bind h (by rw [hs, ht]) fun parent hparent => ?_
      obtain rfl : .node k = parent := Except.ok.inj (hs.symm.trans hparent)
      -- the kind of the container is a word that was there from the start
      have hsize := hk.lt_size J.sound.closed J.tree.there
      obtain ⟨word, hstart, hkind⟩ := h.left.kind_start hsize
      obtain ⟨word', hstart', hkind'⟩ := h.right.kind_start hsize
      obtain rfl : word = word' := Value.text.inj (hstart.symm.trans hstart')
      refine tallies_tryRead_bind h ?_ fun found hfound => ?_
      · rw [getAttribute_kind, getAttribute_kind, hkind, hkind']
      · rw [getAttribute_kind, hkind] at hfound
        obtain rfl := Except.ok.inj hfound
        exact tallies_ifSame h (.of_cells rfl) ha.1 (tallies_actAll hdown ha.2 h hn)
  | .duplicates among, _, s, t, h, hn => by
    rw [act, act]
    refine tallies_bind (tallies_childrenOf h hn) ?_
    rintro _ _ s t hahead ⟨ps, hps, rfl, rfl⟩
    refine tallies_get_bind ?_
    have hclass : ps.filter ((fun c => (s.node c).nodeClass.derives among) ∘ Prod.fst) =
        ps.filter ((fun d => (t.node d).nodeClass.derives among) ∘ Prod.snd) := by
      refine List.filter_congr fun p hp => ?_
      obtain ⟨spot', _, htwins⟩ := hps.twins p hp
      simp only [Function.comp, Node.nodeClass, htwins.form hahead.beside]
    rw [List.filter_map, List.filter_map, hclass]
    exact tallies_recordDuplicates hahead.beside (hps.filter _)
  | .fail fault, _, s, t, h, hn => by
    rw [act, act]
    exact tallies_throw fault fault

/-- Actions one after the other do alike, if what is done below does. -/
theorem tallies_actAll {down down' : Value → Edit Unit}
    (hdown : J.Alike spot n m (down (.node n)) (down' (.node m))) :
    ∀ {as : List Action}, Action.AllPlain J.start J.Part as →
      J.Alike spot n m (actAll J.linter down (.node n) as) (actAll J.linter down' (.node m) as)
  | [], _, s, t, h, hn => by
    rw [actAll, actAll]
    exact tallies_pure h trivial
  | a :: as, has, s, t, h, hn => by
    rw [Action.AllPlain] at has
    rw [actAll, actAll]
    refine tallies_bind (tallies_act hdown has.1 h hn) fun _ _ s t hahead _ => ?_
    exact tallies_actAll hdown has.2 hahead.beside (hn.ahead hahead)

end

/-! ## Visits -/

/-- The class of a linter is the same in every store that follows. -/
theorem behaviour_follows {u : Store} (h : J.start.Follows u) :
    (u.linter? J.linter).map Linter.behaviour =
      (J.start.linter? J.linter).map Linter.behaviour := by
  obtain ⟨a, l, ha, hl, _⟩ := J.works.isLinter
  obtain ⟨b, hb, lints, file, parent, rfl⟩ := h.agent _ a ha
  obtain ⟨role, notes, _, _⟩ := a
  cases role <;> simp [linter?, ha, hb, Role.inRun]

theorem visitOf?_follows {u : Store} (h : J.start.Follows u) (kind : String) :
    u.visitOf? J.linter kind = J.start.visitOf? J.linter kind := by
  have hbehaviour := behaviour_follows h
  unfold visitOf?
  cases hu : u.linter? J.linter <;> cases hstart : J.start.linter? J.linter <;>
    simp_all

/-- Whatever the class does is plain. -/
theorem allPlain_of_visitOf? (J : Job) {kind : String} {actions : List Action}
    (h : J.start.visitOf? J.linter kind = some actions) :
    Action.AllPlain J.start J.Part actions := by
  unfold visitOf? at h
  cases hl : J.start.linter? J.linter with
  | none => simp [hl] at h
  | some l =>
    rw [hl] at h
    obtain ⟨before, after, hvisits, _⟩ := List.lookup_eq_some_iff.mp h
    refine J.works.plain l hl (kind, actions) ?_
    rw [hvisits]
    simp

/-- Going on below twins tallies, if visiting their children does. -/
theorem tallies_descendTo {visit visit' : Value → Edit Unit}
    (hvisit : ∀ spot' ∈ J.start.spots spot, ∀ n m,
      J.Alike spot' n m (visit (.node n)) (visit' (.node m))) : ∀ rounds : Nat,
      J.Alike spot n m (descendTo J.linter visit rounds (.node n))
        (descendTo J.linter visit' rounds (.node m))
  | 0, _, _, _, _ => tallies_throw _ _
  | r + 1, s, t, h, hn => by
    rw [descendTo, descendTo]
    refine tallies_tryRead_bind h (h.toOption_callable _) fun _ _ => tallies_read_bind ?_
    have hs : s.descentOf? J.linter = J.start.descentOf? J.linter :=
      visitOf?_follows h.left.settling.follows "children"
    have ht : t.descentOf? J.linter = J.start.descentOf? J.linter :=
      visitOf?_follows h.right.settling.follows "children"
    rw [hs, ht]
    cases hdescent : J.start.descentOf? J.linter with
    | none =>
      refine tallies_bind (tallies_childrenOf h hn) ?_
      rintro _ _ s t hahead ⟨ps, hps, rfl, rfl⟩
      refine tallies_forM ps hahead.beside fun p hp s' t' hahead' => ?_
      obtain ⟨spot', hspot', htwins⟩ := (hps.ahead hahead').twins p hp
      exact hvisit spot' hspot' p.1 p.2 hahead'.beside htwins
    | some actions =>
      exact tallies_actAll (tallies_descendTo hvisit r) (J.allPlain_of_visitOf? hdescent) h hn

/-- No way down from a spot is longer than `depth`, not counting variables that are made. -/
def Ends (J : Job) (depth : Nat) : Spot → Prop
  | .listed n => J.start.EndsWithin depth n
  | .made .. => True

/-- Visits of twins tally, to whatever depth that reaches the bottom. -/
theorem tallies_visitTo : ∀ {depth d d' : Nat} {spot : Spot}, J.Ends depth spot → depth < d →
    depth < d' →
      ∀ n m, J.Alike spot n m (visitTo J.linter d (.node n)) (visitTo J.linter d' (.node m))
  | _, 0, _, _, _, hd, _ => absurd hd (Nat.not_lt_zero _)
  | _, _ + 1, 0, _, _, _, hd' => absurd hd' (Nat.not_lt_zero _)
  | depth, d + 1, d' + 1, spot, hends, hd, hd' => by
    have hbelow : ∀ spot' ∈ J.start.spots spot, ∀ n m,
        J.Alike spot' n m (visitTo J.linter d (.node n)) (visitTo J.linter d' (.node m)) := by
      intro spot' hspot'
      cases spot with
      | made k name => exact absurd hspot' (by simp [spots])
      | listed k =>
        cases depth with
        | zero => exact hends.elim
        | succ depth =>
          have hends' : J.Ends depth spot' := by
            obtain ⟨kid, hkid, rfl⟩ := List.mem_map.mp hspot'
            rcases kid with c | name
            · cases hks : J.start.kids k with
              | none => simp [hks] at hkid
              | some ks => exact hends c ⟨ks, hks, by simpa [hks] using hkid⟩
            · trivial
          exact tallies_visitTo hends' (by omega) (by omega)
    intro n m s t h hn
    have hdescend := tallies_descendTo (n := n) (m := m) hbelow slack
    rw [visitTo, visitTo]
    refine tallies_tryRead_bind h (h.toOption_callable _) fun _ _ => ?_
    -- twins are of one kind, so both visits find the same method
    obtain ⟨word, hs, ht⟩ := hn.kindOf h
    refine tallies_tryRead_bind h (by rw [hs, ht]) fun kind _ => tallies_get_bind ?_
    rw [notes_agent h.left.settling.follows J.holds_linter,
      notes_agent h.right.settling.follows J.holds_linter,
      visitOf?_follows h.left.settling.follows, visitOf?_follows h.right.settling.follows]
    cases (J.start.notes (.agent J.linter)).lookup ("visit_" ++ kind) with
    | none =>
      cases hvisit : J.start.visitOf? J.linter kind with
      | none => exact hdescend h hn
      | some actions => exact tallies_actAll hdescend (J.allPlain_of_visitOf? hvisit) h hn
    | some w =>
      cases w with
      | null => exact hdescend h hn
      | _ => exact tallies_throw _ _

/-! ## Runs -/

/-- A run starts with nothing recorded. -/
theorem working_of_reset (hs : J.start.Settling J.root s) :
    ∃ u, (reset J.linter J.file).perform s = (.ok (), u) ∧ J.Working u ∧ J.lints u = [] ∧
      u.marks = s.marks := by
  obtain ⟨a, l, ha, hl, hb⟩ := isLinter_follows hs.follows J.works.isLinter
  obtain ⟨stays, hreset⟩ := perform_reset ha hl hb J.file
  have hunderway := startedOver_underway J.sound.closed J.tree hs ha hl J.file stays
  have hlints := lintsOf_startedOver (l := l) ha J.file stays
  refine ⟨_, hreset, ⟨hunderway.settling, ⟨_, hlints, hs.follows.extends_.lists, ?_⟩, ?_⟩, ?_, rfl⟩
  · show s.lists.size < (s.lists.push []).size
    simp
  · rw [linter?_startedOver ha]
    rfl
  · unfold lints
    rw [hlints]
    show (s.addList []).list s.lists.size = []
    rw [list_addList, if_pos rfl]

theorem Working.items_lints (h : J.Working s) :
    s.items (s.lintsOf J.linter) = .ok (J.lints s) := by
  obtain ⟨l, hl, _⟩ := h.lints
  unfold Job.lints
  rw [hl]
  rfl

theorem Gone.made (h : J.Gone s t) (hs : J.lints s = []) :
    J.Made s.marks t.marks (J.lints t) := by
  obtain ⟨new, hnew, hmade⟩ := h.lints
  rw [hnew, hs]
  exact hmade

/-- Two runs from stores in which the document settles both fail, or give lints that say the
same. -/
theorem run_tallies (hs : J.start.Settling J.root s) (ht : J.start.Settling J.root t) :
    match (run J.linter (.node J.root) J.file).perform s,
      (run J.linter (.node J.root) J.file).perform t with
    | (.ok xs, s'), (.ok ys, t') => xs.map Value.report? = ys.map Value.report? ∧
        J.Made s.marks s'.marks xs ∧ J.Made t.marks t'.marks ys
    | (.error _, _), (.error _, _) => True
    | _, _ => False := by
  obtain ⟨u, hreset, hworking, hempty, hmarks⟩ := working_of_reset hs
  obtain ⟨u', hreset', hworking', hempty', hmarks'⟩ := working_of_reset ht
  have hbeside : J.Beside u u' := ⟨hworking, hworking', by rw [hempty, hempty']⟩
  have hroot : J.Twins u u' J.root J.root (.listed J.root) := by
    refine ⟨⟨rfl, ?_, Or.inl rfl⟩, ⟨rfl, ?_, Or.inl rfl⟩⟩
    · rw [hworking.settling.top]
      exact .root
    · rw [hworking'.settling.top]
      exact .root
  have hends : J.Ends (J.start.nodes.size + 1) (.listed J.root) :=
    endsWithin_of_acyclic J.sound.closed J.tree.acyclic
  -- the depths at which the two visits give up may differ, but both reach beyond the document
  have hdepth : ∀ {u}, J.Working u → J.start.nodes.size + 1 < depth u := by
    intro u hu
    have hsize : J.start.nodes.size ≤ u.nodes.size := hu.settling.follows.extends_.nodes
    unfold depth
    omega
  have hvisit := tallies_visitTo hends (hdepth hworking) (hdepth hworking') _ _ hbeside hroot
  unfold Tallies at hvisit
  rw [perform_run hreset, perform_run hreset']
  cases hx : (visitTo J.linter (depth u) (.node J.root)).perform u with
  | mk r v =>
    cases hy : (visitTo J.linter (depth u') (.node J.root)).perform u' with
    | mk r' v' =>
      rw [hx, hy] at hvisit
      cases r with
      | error fault =>
        cases r' with
        | error fault' => trivial
        | ok _ => exact hvisit.elim
      | ok _ =>
        cases r' with
        | error fault' => exact hvisit.elim
        | ok _ =>
          obtain ⟨⟨hahead, hleft, hright⟩, _⟩ := hvisit
          simp only [hahead.left.items_lints, hahead.right.items_lints]
          refine ⟨hahead.same, ?_, ?_⟩
          · rw [← hmarks]
            exact hleft.made hempty
          · rw [← hmarks']
            exact hright.made hempty'

end Job

/-! ## Runs after other passes -/

/-- Two values say the same as lints. -/
def Value.SaysSame (v w : Value) : Prop := ∃ r, v.report? = some r ∧ w.report? = some r

/-- Two runs both failed, or gave lints that say the same one by one. -/
inductive SameLints : Except Fault (List Value) → Except Fault (List Value) → Prop where
  | failed (fault fault' : Fault) : SameLints (.error fault) (.error fault')
  | found {xs ys : List Value} : List.Forall₂ Value.SaysSame xs ys → SameLints (.ok xs) (.ok ys)

/-- Lints with the same reports say the same, one by one. -/
theorem forall₂_saysSame : ∀ {xs ys : List Value},
    xs.map Value.report? = ys.map Value.report? → (∀ x ∈ xs, ∃ r, x.report? = some r) →
      List.Forall₂ Value.SaysSame xs ys
  | [], [], _, _ => .nil
  | [], _ :: _, h, _ => absurd h (by simp)
  | _ :: _, [], h, _ => absurd h (by simp)
  | x :: xs, y :: ys, h, hxs => by
    obtain ⟨hhead, htail⟩ := List.cons.inj h
    obtain ⟨r, hr⟩ := hxs x (List.mem_cons_self ..)
    refine .cons ⟨r, hr, hhead.symm.trans hr⟩ ?_
    exact forall₂_saysSame htail fun x' hx' => hxs x' (List.mem_cons_of_mem _ hx')

/-- A run of a linter over a document gives the same whatever passes went over the document before:
both fail, or both give lints that agree one by one in linter, file, location, description and
severity. -/
theorem run_after_passes {s : Store} (hs : s.Sound) {root : NodeId} (htree : s.TreeFrom root)
    {i : AgentId} (hi : s.IsPlain (fun _ => True) i) (file : Value) {passes : List Pass}
    (hpasses : ∀ p ∈ passes, p.Over s root) :
    SameLints ((Linter.run i (.node root) file).perform s).1
      ((Linter.run i (.node root) file).perform (Pass.afterAll passes s)).1 := by
  let J : Job :=
    { start := s, root, linter := i, file, Part := fun _ => True, sound := hs, tree := htree
      works := hi, one := trivial, located := fun _ _ _ _ _ => trivial }
  have hrefl : s.Settling root s := .refl htree
  have hruns := J.run_tallies hrefl (Pass.afterAll_settles hs.closed htree hrefl hpasses)
  revert hruns
  cases (Linter.run i (.node root) file).perform s with
  | mk x s' =>
    cases (Linter.run i (.node root) file).perform (Pass.afterAll passes s) with
    | mk y t' =>
      cases x with
      | error fault =>
        cases y with
        | error fault' => exact fun _ => .failed fault fault'
        | ok ys => exact False.elim
      | ok xs =>
        cases y with
        | error fault' => exact False.elim
        | ok ys =>
          rintro ⟨hsame, hmade, _⟩
          refine .found (forall₂_saysSame hsame fun x hx => ?_)
          obtain ⟨r, mark, rfl, _⟩ := hmade.mem x hx
          exact ⟨r, r.report?_lint mark⟩

/-- A loop with a variable to be made, over a list with a column but no line, so that a walk that
starts there hands down a column alone. One linter has something to say about variables and equal
properties, the other stops at the second property. -/
def loopSheet : Store where
  nodes := #[
    some { position := { line := .int 1 }
           form := .statement (.list 0) (.each (.list 1) (.node 3)) },
    some { position := { line := .int 2 }
           form := .statement (.list 2) (.prop (.list 2) (.node 5)), parent := .to (.node 0) },
    some { position := { line := .int 3 }
           form := .statement (.list 2) (.prop (.list 2) (.node 6)), parent := .gone },
    some { position := { column := .int 4 }
           form := .expression (.list (.list 3) (.text "space")) },
    some { form := .expression (.variable (.text "colors")) },
    some { form := .expression (.variable (.text "color")) },
    some { form := .expression (.variable (.text "color")) }]
  lists := #[[.node 1, .node 2], [.text "color"], [], [.node 4], []]
  agents := #[
    { role := .linter {
        behaviour := LinterClass.base.derive "Naming" none none
          [("script_variable", [
              .whenAttribute "column" (.ok (.int 4)) [.lint (.text "column") none false],
              .whenAttribute "name" (.ok (.text "color")) [.lint (.text "name") none false]]),
           ("each", [.duplicates .prop, .descend])]
        settings := .null
        lints := .list 4 } },
    { role := .linter {
        behaviour := LinterClass.base.derive "Halting" none none
          [("prop", [.whenAttribute "line" (.ok (.int 3)) [.fail .tooDeep], .descend])]
        settings := .null
        lints := .list 4 } }]

/-- The passes before are a walk from within, a run that fails, a run of the linter itself and a
walk that is left early. -/
theorem run_after_passes_loop :
    loopSheet.Sound ∧ loopSheet.TreeFrom 0 ∧ loopSheet.IsPlain (fun _ => True) 0 ∧
      SameLints ((Linter.run 0 (.node 0) (.text "a.scss")).perform loopSheet).1
        ((Linter.run 0 (.node 0) (.text "a.scss")).perform (Pass.afterAll
          [.walk .strict 9 3, .run 1 0 (.text "b.scss"), .run 0 0 (.text "b.scss"),
            .walk .refresh 2 0] loopSheet)).1 := by
  have hclosed : loopSheet.Closed := by decide
  have hsound : loopSheet.Sound := sound_of_nodes hclosed rfl (by decide) (by decide)
  have htree : loopSheet.TreeFrom 0 := treeFrom_of_offspring hclosed (by decide) (by decide)
    (by decide) (by decide) (by decide) (by decide)
  have hplain : loopSheet.IsPlain (fun _ => True) 0 := by
    refine ⟨⟨_, _, rfl, rfl, rfl⟩, fun l hl => ?_⟩
    obtain rfl := Option.some.inj hl
    simp [LinterClass.derive, LinterClass.base, Action.AllPlain, Action.Plain,
      Action.foreignNames, parentNames, Holds, Value.cells]
  have hother : loopSheet.IsLinter 1 := ⟨_, _, rfl, rfl, rfl⟩
  have hinner : loopSheet.Below 0 3 := .single (leads_iff_offspring.mpr (by decide))
  have hpasses : ∀ p ∈ [Pass.walk .strict 9 3, .run 1 0 (.text "b.scss"), .run 0 0 (.text "b.scss"),
      .walk .refresh 2 0], p.Over loopSheet 0 := by
    simp only [List.mem_cons, List.not_mem_nil, or_false]
    rintro p (rfl | rfl | rfl | rfl)
    · exact hinner
    · exact ⟨.refl, hother⟩
    · exact ⟨.refl, hplain.isLinter⟩
    · exact .refl
  exact ⟨hsound, htree, hplain, run_after_passes hsound htree hplain (.text "a.scss") hpasses⟩

end SheetLint
