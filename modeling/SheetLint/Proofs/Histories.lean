import SheetLint.Proofs.Orderly
import SheetLint.Session

/-!
# The first live parent stays

A node refers to its parent without keeping it alive, and the reference is never taken back: it ends
with the parent. So who the parent is can be told from what has happened: it is the one that the
node was attached to last, if nothing was the end of that since (`lastParent`). Whatever is done in
a session, its journal says so at every moment (`Deed.history_recorded`); each thing that can happen
keeps that (`chronicle_recorded`), and so does a collection (`Deed.events_recorded`).

Under the strict policy this makes the first live parent the only one, from when a node is attached
to it until it is lost: `Faithful.kept`. Nothing is lost that a named value leads to, and a
collection is the end of everything else (`Deed.not_reached_of_lost`, `Deed.clears_iff`).
-/

namespace SheetLint

open Store

namespace Event

/-- Whether an event is the end of a node. -/
def kills (n : NodeId) : Event → Bool
  | lost gone _ => gone (.node n)
  | _ => false

/-- Whether nothing is attached in an event, unless under the strict policy. -/
def isStrict : Event → Bool
  | tried _ _ .refresh _ => false
  | _ => true

/-- The parent that a node has after an event, given the one before: that which it was attached to
last, as long as it is live. -/
def parentAfter (c : NodeId) (before : Option NodeId) : Event → Option NodeId
  | visited .. => before
  | tried child parent policy s =>
    if (child = c ∧ c < s.nodes.size) ∧ (s.attach (.node child) (.node parent) policy).isOk then
      some parent
    else before
  | lost gone _ => before.filter fun p => !gone (.node p)

end Event

/-- Whether a node survives some events. -/
def Lives (n : NodeId) (events : List Event) : Prop :=
  ∀ e ∈ events, e.kills n = false

/-- The parent that a node was attached to last in the course of some events, as long as it is live;
before them it has the parent `first`. -/
def lastParent (c : NodeId) (first : Option NodeId) (events : List Event) : Option NodeId :=
  events.foldl (Event.parentAfter c) first

theorem lastParent_concat (c : NodeId) (first : Option NodeId) (events : List Event) (e : Event) :
    lastParent c first (events ++ [e]) = e.parentAfter c (lastParent c first events) := by
  rw [lastParent, List.foldl_append]
  rfl

/-- As long as a node lives, its parent in the store at each of some events, and in the one
afterwards, is the one that the events before say. -/
def Faithful (c : NodeId) : (first : Option NodeId) → List Event → Store → Prop
  | p, [], t => t.parentNode c = p
  | p, e :: es, t =>
    e.store.parentNode c = p ∧ (e.kills c = false → Faithful c (e.parentAfter c p) es t)

namespace Faithful

variable {c : NodeId} {t u : Store}

theorem append : ∀ {es fs : List Event} {p : Option NodeId}, Faithful c p es t →
    Faithful c (t.parentNode c) fs u → Faithful c p (es ++ fs) u
  | [], _, _, hp, hfs => hp ▸ hfs
  | _ :: _, _, _, ⟨he, hes⟩, hfs => ⟨he, fun hlives => (hes hlives).append hfs⟩

/-- After some of the events. -/
theorem drop : ∀ {past later : List Event} {p : Option NodeId}, Faithful c p (past ++ later) t →
    Lives c past → Faithful c (lastParent c p past) later t
  | [], _, _, h, _ => h
  | e :: _, _, _, h, hlives =>
    (h.2 (hlives e (List.mem_cons_self ..))).drop fun e' he' =>
      hlives e' (List.mem_cons_of_mem _ he')

/-- In the end. -/
theorem at_end {es : List Event} {p : Option NodeId} (h : Faithful c p es t) (hlives : Lives c es) :
    t.parentNode c = lastParent c p es := by
  rw [← List.append_nil es] at h
  exact h.drop hlives

/-- Under the strict policy a node keeps a parent that lives. -/
theorem kept {m : NodeId} : ∀ {past later : List Event}, Faithful c (some m) (past ++ later) t →
    (∀ e ∈ past, e.store.Orderly) → (∀ e ∈ past, e.isStrict = true) → Lives c past →
      Lives m past → lastParent c (some m) past = some m
  | [], _, _, _, _, _, _ => rfl
  | e :: past, later, h, horderly, hstrict, hlives, hm => by
    have he := List.mem_cons_self (a := e) (l := past)
    have hstep : e.parentAfter c (some m) = some m := by
      cases e with
      | visited v s => rfl
      | lost gone s =>
        have hstays : gone (.node m) = false := hm _ he
        rw [Event.parentAfter, Option.filter_some, hstays]
        rfl
      | tried d q policy s =>
        cases policy with
        | refresh => exact absurd (hstrict _ he) (by simp [Event.isStrict])
        | strict =>
          rw [Event.parentAfter]
          split
          · -- whoever is attached here has the same parent already
            rename_i hc
            obtain ⟨⟨rfl, _⟩, hok⟩ := hc
            have hparent : s.parentNode d = some m := h.1
            rcases (horderly _ he).attach_strict d q with ⟨_, _, _, _, _, _, _, hfault⟩ | ⟨hsame, _⟩
            · rw [show s.attach (.node d) (.node q) .strict = _ from hfault] at hok
              exact absurd hok (by simp [Except.isOk, Except.toBool])
            · rw [hsame m hparent]
          · rfl
    have hrest := h.2 (hlives _ he)
    rw [hstep] at hrest
    rw [lastParent, List.foldl_cons, hstep]
    exact kept hrest (fun e' h' => horderly e' (List.mem_cons_of_mem _ h'))
      (fun e' h' => hstrict e' (List.mem_cons_of_mem _ h'))
      (fun e' h' => hlives e' (List.mem_cons_of_mem _ h'))
      fun e' h' => hm e' (List.mem_cons_of_mem _ h')

end Faithful

/-- From an orderly store some events lead to another, through orderly ones, and they say what the
parent of a node is all the time. -/
structure Recorded (c : NodeId) (s : Store) (es : List Event) (t : Store) : Prop where
  orderly : t.Orderly
  events : ∀ e ∈ es, e.store.Orderly
  faithful : Faithful c (s.parentNode c) es t

namespace Recorded

variable {c : NodeId} {s t u : Store} {es fs : List Event}

theorem append (h : Recorded c s es t) (h' : Recorded c t fs u) : Recorded c s (es ++ fs) u where
  orderly := h'.orderly
  events e he := (List.mem_append.mp he).elim (h.events e) (h'.events e)
  faithful := h.faithful.append h'.faithful

/-- Where nothing happens that is of interest. -/
theorem of_calm (hs : s.Orderly) (h : s.Calm t) : Recorded c s [] t :=
  ⟨(h hs).1, nofun, (h hs).2 c⟩

/-- Where one thing happens. -/
theorem single {e : Event} (he : e.store.Orderly) (hsame : e.store.parentNode c = s.parentNode c)
    (ht : t.Orderly)
    (h : e.kills c = false → t.parentNode c = e.parentAfter c (s.parentNode c)) :
    Recorded c s [e] t :=
  ⟨ht, fun _ hmem => List.mem_singleton.mp hmem ▸ he, hsame, h⟩

end Recorded

/-- The journals of all operations are faithful. -/
theorem chronicle_recorded (c : NodeId) :
    Chronicle fun s es t => s.Orderly → Recorded c s es t where
  rest s hs := .of_calm hs (isLater_calm.refl s)
  append hes hfs hs := (hes hs).append (hfs (hes hs).orderly)
  visited _ _ hs := .single hs rfl hs fun _ => rfl
  tried d q policy s hs := by
    rw [Edit.attach, Edit.perform_change]
    cases ha : s.attach (.node d) (.node q) policy with
    | error fault =>
      refine .single hs rfl hs fun _ => ?_
      rw [Event.parentAfter, ha, if_neg (by simp [Except.isOk, Except.toBool])]
    | ok t =>
      obtain ⟨ht, hparents⟩ := hs.attach ha
      refine .single hs rfl ht fun _ => (hparents c).trans ?_
      rw [Event.parentAfter, ha]
      by_cases hc : d = c ∧ c < s.nodes.size
      · rw [if_pos hc, if_pos ⟨hc, rfl⟩]
      · rw [if_neg hc, if_neg fun h => hc h.1]
  lost values s hs := by
    obtain ⟨ht, hparents⟩ := hs.keepParents fun d => !s.leaves values d
    rw [release_eq]
    exact .single hs rfl ht fun _ => hparents c
  fill s d self hs := .of_calm hs (.fill s d self)
  make s self name hs := .of_calm hs (.addVariable s self name)
  note _ _ hs := .of_calm hs (.of_rest rfl rfl rfl)
  mark _ hs := .of_calm hs (.of_rest rfl rfl rfl)
  list _ _ hs := .of_calm hs (.of_rest rfl rfl rfl)
  table _ _ hs := .of_calm hs (.of_rest rfl rfl rfl)
  add {s t list v} h hs := by
    obtain ⟨l, -, rfl⟩ := Store.append_inv h
    exact .of_calm hs (.of_rest rfl rfl rfl)
  assign hname h hs := .of_calm hs (calm_setAgentAttribute hname h)

/-- Between two collections what is lost is what is let go, and what was in use at the last one
stays noted. -/
theorem chronicle_baseline : Chronicle fun s es t => t.baseline = s.baseline ∧
    ∀ gone u, .lost gone u ∈ es → u.baseline = s.baseline ∧ ∃ values, gone = u.leaves values where
  rest _ := ⟨rfl, nofun⟩
  append {s t u es fs} := by
    rintro ⟨ht, hes⟩ ⟨hu, hfs⟩
    refine ⟨hu.trans ht, fun gone v hv => ?_⟩
    rcases List.mem_append.mp hv with hv | hv
    · exact hes gone v hv
    · obtain ⟨hbase, hgone⟩ := hfs gone v hv
      exact ⟨hbase.trans ht, hgone⟩
  visited _ _ := ⟨rfl, fun _ _ h => by simp at h⟩
  tried d q policy s := by
    refine ⟨?_, fun _ _ h => by simp at h⟩
    rw [Edit.attach, Edit.perform_change]
    cases ha : s.attach (.node d) (.node q) policy with
    | error fault => rfl
    | ok t => rcases attach_cases ha with rfl | rfl | ⟨m, rfl⟩ <;> rfl
  lost values s := by
    refine ⟨rfl, fun gone u h => ?_⟩
    cases List.mem_singleton.mp h
    exact ⟨rfl, values, rfl⟩
  fill s d self := by
    refine ⟨?_, nofun⟩
    unfold Store.fill
    split <;> rfl
  make _ _ _ := ⟨rfl, nofun⟩
  note _ _ := ⟨rfl, nofun⟩
  mark _ := ⟨rfl, nofun⟩
  list _ _ := ⟨rfl, nofun⟩
  table _ _ := ⟨rfl, nofun⟩
  add {s t list v} h := by
    obtain ⟨l, -, rfl⟩ := Store.append_inv h
    exact ⟨rfl, nofun⟩
  assign hname h := ⟨baseline_setAttribute h, nofun⟩

/-! ## What is done in the course of a session -/

/-- A value to be written under a name. It is there, and the name is neither that of the reference
to a parent, which is made by attaching, nor that of all attributes together. -/
structure Assignment where
  target : Value
  name : String
  value : Value
  free : name ≠ Backref.name ∧ name ≠ "__dict__"
  given : value.isMissing = false

/-- What can be done with trees in a session, all of it under the strict policy. -/
inductive Deed where
  | attach (child parent : NodeId)
  | children (v : Value)
  /-- A walk that is left after `limit` nodes. -/
  | walk (limit : Nat) (root : Value)
  | run (linter root file : Value)
  | assign (a : Assignment)
  | drop (name : String)
  | collect

namespace Session

/-- The values that have a name. -/
def named (x : Session) : List Value := x.names.map (·.2)

/-- Whether something does not stay at a collection. -/
def clears (x : Session) : Cell → Bool :=
  fun c => !(x.store.keepTables.placeReferences.reach x.named).contains c

end Session

namespace Deed

/-- The session after a deed, whether it went through or not. -/
def after : Deed → Session → Session
  | attach child parent, x => (x.perform (Edit.attach (.node child) (.node parent) .strict)).2
  | children v, x => (x.perform (Edit.childrenOf v .strict)).2
  | walk limit root, x => { x with store := (Walk.start .strict limit root x.store).store }
  | run linter root file, x => (x.perform (Document.runOne linter root file)).2
  | assign a, x => (x.perform (Edit.change (·.setAttribute a.target a.name a.value))).2
  | drop name, x => (x.drop name).toOption.getD x
  | collect, x => x.collect

/-- What happens in the course of a deed. -/
def events : Deed → Session → List Event
  | attach child parent, x => (Told.attach child parent .strict x.store).events
  | children v, x => (Told.childrenOf v .strict x.store).events
  | walk limit root, x => (Told.walk .strict limit root x.store).events
  | run linter root file, x => (Told.runOne linter root file x.store).events
  | assign _, _ => []
  | drop _, _ => []
  | collect, x => [.lost x.clears x.store]

/-- The session after several deeds. -/
def afterAll (deeds : List Deed) (x : Session) : Session :=
  deeds.foldl (fun x d => d.after x) x

/-- What happens in the course of several deeds. -/
def history : List Deed → Session → List Event
  | [], _ => []
  | d :: deeds, x => d.events x ++ history deeds (d.after x)

variable {x : Session} {c : NodeId}

theorem perform_store {α : Type} {t : Told α} {e : Edit α} (h : Told.Tells t e) (x : Session) :
    (x.perform e).2.store = (t x.store).store := by
  unfold Session.perform
  rw [h x.store]

/-- The journal of a deed is faithful. -/
theorem events_recorded (hx : x.store.Orderly) (d : Deed) :
    Recorded c x.store (d.events x) (d.after x).store := by
  cases d with
  | attach child parent =>
    rw [after, perform_store (Told.attach_tells child parent .strict)]
    exact (chronicle_recorded c).attach child parent .strict x.store hx
  | children v =>
    rw [after, perform_store (Told.childrenOf_tells v .strict)]
    exact (chronicle_recorded c).childrenOf v .strict x.store hx
  | walk limit root =>
    -- a walk is no edit: it is left where it is, and so is the session
    have hstore := congrArg Walk.store (Told.walk_tells .strict limit root x.store)
    rw [after, ← hstore]
    exact (chronicle_recorded c).walk .strict limit root x.store hx
  | run linter root file =>
    rw [after, perform_store (Told.runOne_tells linter root file)]
    exact (chronicle_recorded c).runOne linter root file x.store hx
  | assign a =>
    refine .of_calm hx ?_
    exact Edit.moves_change isLater_calm
      (fun _ _ h => calm_setAttribute a.free.1 a.free.2 a.given h) x.store
  | drop name =>
    have hsame : ((x.drop name).toOption.getD x).store = x.store := by
      unfold Session.drop
      cases x.lookup? name <;> rfl
    rw [after, hsame]
    exact .of_calm hx (isLater_calm.refl x.store)
  | collect =>
    -- references are placed and then the rest is let go; no parent changes before that
    have hkeep := keepTables_of_unbacked hx.unbacked.flag
    obtain ⟨hplaced, hparents⟩ := calm_placeReferences x.store hx
    obtain ⟨hcollected, hleft⟩ := hplaced.collect x.named
    have hafter : (after collect x).store = x.store.placeReferences.collect x.named := by
      show x.store.keepTables.placeReferences.collect x.named = _
      rw [hkeep]
    rw [hafter]
    refine .single hx rfl hcollected fun hlives => ?_
    simp only [Event.kills, Session.clears, hkeep, Bool.not_eq_false'] at hlives
    rw [hleft c hlives, hparents]
    simp only [Event.parentAfter, Session.clears, hkeep, Bool.not_not]

theorem history_recorded : ∀ (deeds : List Deed) {x : Session}, x.store.Orderly →
    Recorded c x.store (history deeds x) (afterAll deeds x).store
  | [], x, hx => .of_calm hx (isLater_calm.refl x.store)
  | d :: deeds, x, hx => by
    have hd : Recorded c x.store (d.events x) (d.after x).store := events_recorded hx d
    exact hd.append (history_recorded deeds hd.orderly)

/-! ### Ends -/

/-- What does not stay at a collection is what no named value leads to. -/
theorem clears_iff (hx : x.store.Orderly) {k : Cell} :
    x.clears k = true ↔ ¬x.store.Reached x.named k := by
  rw [Session.clears, keepTables_of_unbacked hx.unbacked.flag, ← reached_placeReferences,
    ← mem_reach, Bool.not_eq_true', ← Bool.not_eq_true, List.contains_iff_mem]

/-- What is lost is what does not stay at a collection, or what is let go between two. -/
theorem lost_of_events {gone : Cell → Bool} {s : Store} : ∀ {d : Deed},
    .lost gone s ∈ d.events x → gone = x.clears ∧ s = x.store ∨
      s.baseline = x.store.baseline ∧ ∃ values, gone = s.leaves values
  | attach child parent, h =>
    Or.inr ((chronicle_baseline.attach child parent .strict x.store).2 gone s h)
  | children v, h => Or.inr ((chronicle_baseline.childrenOf v .strict x.store).2 gone s h)
  | walk limit root, h => Or.inr ((chronicle_baseline.walk .strict limit root x.store).2 gone s h)
  | run linter root file, h =>
    Or.inr ((chronicle_baseline.runOne linter root file x.store).2 gone s h)
  | assign _, h => absurd h (by simp [events])
  | drop _, h => absurd h (by simp [events])
  | collect, h => by
    cases List.mem_singleton.mp h
    exact Or.inl ⟨rfl, rfl⟩

/-- Operations on trees leave noted what was in use at the last collection. -/
theorem baseline_perform {α : Type} {t : Told α} {e : Edit α} (h : Told.Tells t e)
    (ht : (t x.store).store.baseline = x.store.baseline) :
    (x.perform e).2.store.baseline = x.store.baseline := by
  rw [perform_store h, ht]

/-- What has a name was in use at the last collection: new names are not given. -/
theorem named_after (h : x.named ⊆ x.store.baseline.values) : ∀ d : Deed,
    (d.after x).named ⊆ (d.after x).store.baseline.values
  | attach child parent => by
    rw [after, baseline_perform (Told.attach_tells child parent .strict)
      (chronicle_baseline.attach child parent .strict x.store).1]
    exact h
  | children v => by
    rw [after, baseline_perform (Told.childrenOf_tells v .strict)
      (chronicle_baseline.childrenOf v .strict x.store).1]
    exact h
  | walk limit root => by
    have hbase := (chronicle_baseline.walk .strict limit root x.store).1
    have hstore : (Told.walk .strict limit root x.store).store = _ :=
      congrArg Walk.store (Told.walk_tells .strict limit root x.store)
    rw [hstore] at hbase
    rw [after, hbase]
    exact h
  | run linter root file => by
    rw [after, baseline_perform (Told.runOne_tells linter root file)
      (chronicle_baseline.runOne linter root file x.store).1]
    exact h
  | assign a => by
    have hbase :
        (x.perform (Edit.change (·.setAttribute a.target a.name a.value))).2.store.baseline =
          x.store.baseline := by
      unfold Session.perform
      rw [Edit.perform_change]
      cases hset : x.store.setAttribute a.target a.name a.value with
      | error fault => rfl
      | ok t => exact baseline_setAttribute hset
    rw [after, hbase]
    exact h
  | drop name => by
    rw [after, Session.drop]
    cases x.lookup? name with
    | none => exact h
    | some v =>
      intro w hw
      obtain ⟨e, he, rfl⟩ := List.mem_map.mp hw
      exact h (List.mem_map_of_mem (List.mem_of_mem_filter he))
  | collect => fun _ hv => hv

theorem named_afterAll : ∀ (deeds : List Deed) {x : Session},
    x.named ⊆ x.store.baseline.values →
      (afterAll deeds x).named ⊆ (afterAll deeds x).store.baseline.values
  | [], _, h => h
  | d :: deeds, _, h => named_afterAll deeds (named_after h d)

/-- Nothing that a named value leads to is ever lost. -/
theorem not_reached_of_lost (hx : x.store.Orderly) (hnamed : x.named ⊆ x.store.baseline.values)
    {d : Deed} {gone : Cell → Bool} {s : Store} (h : .lost gone s ∈ d.events x) {k : Cell}
    (hk : gone k = true) : ¬s.Reached x.named k := by
  rcases lost_of_events h with ⟨rfl, rfl⟩ | ⟨hbase, values, rfl⟩
  · exact (clears_iff hx).mp hk
  · intro hreached
    refine not_reached_of_leaves hk (hreached.mono ?_)
    rw [hbase]
    exact hnamed

end Deed

/-- Whatever is done with trees under the strict policy, and whichever attributes are written, names
dropped and things collected in between: at every moment the parent of a node is the one that it was
attached to last, if that is live, and else it has none. To attach it to another node fails if it
has a live parent, which it then keeps, and in no other case. So a node keeps its parent as long as
that is live, and what is not live does not stand in the way of another.

What a collection is the end of is exactly what no named value leads to. Nothing else but that is
lost when a linter forgets the lints of the run before. -/
theorem live_parent_stays {x : Session} (hx : x.store.Orderly)
    (hnamed : x.named ⊆ x.store.baseline.values) (deeds : List Deed)
    (hstrict : ∀ e ∈ Deed.history deeds x, e.isStrict = true) :
    (∀ c past e later, Deed.history deeds x = past ++ e :: later → Lives c past →
      e.store.parent? c = .ok ((lastParent c (x.store.parentNode c) past).map .node)) ∧
    (∀ c, Lives c (Deed.history deeds x) → (Deed.afterAll deeds x).store.parent? c =
      .ok ((lastParent c (x.store.parentNode c) (Deed.history deeds x)).map .node)) ∧
    (∀ c q policy s past later,
      Deed.history deeds x = past ++ .tried c q policy s :: later → Lives c past →
      ((∃ kind line parentKind parentLine, s.attach (.node c) (.node q) policy =
          .error (.secondParent kind line parentKind parentLine)) ↔
        ∃ p, lastParent c (x.store.parentNode c) past = some p ∧ p ≠ q) ∧
      (∀ fault, s.attach (.node c) (.node q) policy = .error fault →
        lastParent c (x.store.parentNode c) (past ++ [.tried c q policy s]) =
          lastParent c (x.store.parentNode c) past) ∧
      (lastParent c (x.store.parentNode c) past = none → c < s.nodes.size →
        lastParent c (x.store.parentNode c) (past ++ [.tried c q policy s]) = some q)) ∧
    (∀ c p past mid later, Deed.history deeds x = past ++ (mid ++ later) →
      Lives c (past ++ mid) → lastParent c (x.store.parentNode c) past = some p → Lives p mid →
        lastParent c (x.store.parentNode c) (past ++ mid) = some p) ∧
    ∀ past d rest, deeds = past ++ d :: rest →
      let y := Deed.afterAll past x
      (∀ gone s, .lost gone s ∈ d.events y → ∀ n, gone (.node n) = true →
        ¬s.Reached y.named (.node n)) ∧
      (d = .collect → d.events y = [.lost y.clears y.store] ∧
        ∀ n, y.clears (.node n) = true ↔ ¬y.store.Reached y.named (.node n)) := by
  have hall (c : NodeId) :
      Recorded c x.store (Deed.history deeds x) (Deed.afterAll deeds x).store :=
    Deed.history_recorded deeds hx
  refine ⟨fun c past e later hsplit hlives => ?_, fun c hlives => ?_,
    fun c q policy s past later hsplit hlives => ?_,
    fun c p past mid later hsplit hlives hlast hp => ?_, fun past d rest hsplit => ?_⟩
  · have h := hall c
    rw [hsplit] at h
    rw [(h.events e (by simp)).parent?, (h.faithful.drop hlives).1]
  · rw [(hall c).orderly.parent?, (hall c).faithful.at_end hlives]
  · have h := hall c
    rw [hsplit] at h
    have hpolicy := hstrict (.tried c q policy s) (hsplit ▸ by simp)
    obtain rfl : policy = .strict := by
      cases policy with
      | strict => rfl
      | refresh => exact absurd hpolicy (by simp [Event.isStrict])
    have hs : s.Orderly := h.events (.tried c q .strict s) (by simp)
    have hparent : s.parentNode c = lastParent c (x.store.parentNode c) past :=
      (h.faithful.drop hlives).1
    rw [lastParent_concat, ← hparent, Event.parentAfter]
    rcases hs.attach_strict c q with ⟨p, hp, hne, hrefused⟩ | ⟨hsame, t, hok⟩
    · obtain ⟨kind, line, parentKind, parentLine, hfault⟩ := hrefused
      refine ⟨⟨fun _ => ⟨p, hp, hne⟩, fun _ => ⟨kind, line, parentKind, parentLine, hfault⟩⟩,
        fun _ _ => ?_, fun hnone => ?_⟩
      · rw [hfault, if_neg (by simp [Except.isOk, Except.toBool])]
      · rw [hp] at hnone
        cases hnone
    · refine ⟨⟨?_, ?_⟩, fun fault hfault => ?_, fun _ hc => ?_⟩
      · rintro ⟨kind, line, parentKind, parentLine, hfault⟩
        rw [hok] at hfault
        cases hfault
      · rintro ⟨p, hp, hne⟩
        exact absurd (hsame p hp) hne
      · rw [hok] at hfault
        cases hfault
      · rw [hok, if_pos ⟨⟨rfl, hc⟩, rfl⟩]
  · have h := hall c
    rw [hsplit] at h hstrict
    have hrest := h.faithful.drop fun e he => hlives e (List.mem_append_left _ he)
    rw [hlast] at hrest
    have hmid : ∀ {e}, e ∈ mid → e ∈ past ++ (mid ++ later) := fun he =>
      List.mem_append_right _ (List.mem_append_left _ he)
    rw [lastParent, List.foldl_append]
    show lastParent c (lastParent c _ past) mid = _
    rw [hlast]
    exact hrest.kept (fun e he => h.events e (hmid he)) (fun e he => hstrict e (hmid he))
      (fun e he => hlives e (List.mem_append_right _ he)) hp
  · intro y
    have hy : y.store.Orderly := (Deed.history_recorded (c := 0) past hx).orderly
    refine ⟨fun gone s h n hn => ?_, ?_⟩
    · exact Deed.not_reached_of_lost hy (Deed.named_afterAll past hnamed) h hn
    · rintro rfl
      exact ⟨rfl, fun n => Deed.clears_iff hy⟩

/-- Two containers of one rule, and a strict linter. -/
def heirSession : Session where
  store := {
    nodes := #[
      some { position := { line := .int 1 }, form := .statement (.list 0) (.root (.text "")) },
      some { position := { line := .int 2 }, form := .statement (.list 1) .plain },
      some { position := { line := .int 3 }, form := .statement (.list 0) .plain }]
    lists := #[[.node 1], [], []]
    agents := #[
      { role := .linter {
          behaviour := LinterClass.base.derive "Naming" none none [("root", [.descend])]
          settings := .agent 1
          lints := .list 2 } },
      { role := .settings .null (.policy .strict) }]
    baseline := { values := [.node 0, .node 2, .agent 0], nodes := 3, lists := 3, agents := 2 } }
  names := [("first", .node 0), ("second", .node 2), ("naming", .agent 0)]

/-- The second container tries for the rule in vain until the first is collected. -/
def heirDeeds : List Deed :=
  [.children (.node 0), .attach 1 2, .run (.agent 0) (.node 0) (.text "a.scss"),
    .assign ⟨.node 1, "line", .int 4, by decide, rfl⟩, .drop "first", .collect, .attach 1 2]

/-- The first container keeps the rule until it is collected, and then the second one gets it. -/
theorem live_parent_stays_heir :
    heirSession.store.Orderly ∧ heirSession.named ⊆ heirSession.store.baseline.values ∧
      (∀ e ∈ Deed.history heirDeeds heirSession, e.isStrict = true) ∧
      Lives 1 (Deed.history heirDeeds heirSession) ∧
      (Deed.afterAll (heirDeeds.take 5) heirSession).store.parent? 1 = .ok (some (.node 0)) ∧
      ¬(Deed.afterAll (heirDeeds.take 5) heirSession).store.Reached
        (Deed.afterAll (heirDeeds.take 5) heirSession).named (.node 0) ∧
      (Deed.afterAll heirDeeds heirSession).store.parent? 1 = .ok (some (.node 2)) := by
  have horderly : heirSession.store.Orderly := .of_all rfl (by decide) (by decide)
  have hnamed : heirSession.named ⊆ heirSession.store.baseline.values := fun _ h => h
  have hstrict : ∀ e ∈ Deed.history heirDeeds heirSession, e.isStrict = true := by decide +kernel
  have hstrict' : ∀ e ∈ Deed.history (heirDeeds.take 5) heirSession, e.isStrict = true := by
    decide +kernel
  have hlives : Lives 1 (Deed.history heirDeeds heirSession) := by
    unfold Lives
    decide +kernel
  have hlives' : Lives 1 (Deed.history (heirDeeds.take 5) heirSession) := by
    unfold Lives
    decide +kernel
  have hfirst : lastParent 1 (heirSession.store.parentNode 1)
      (Deed.history (heirDeeds.take 5) heirSession) = some 0 := by decide +kernel
  have hsecond : lastParent 1 (heirSession.store.parentNode 1)
      (Deed.history heirDeeds heirSession) = some 2 := by decide +kernel
  obtain ⟨_, hend, _, _, hcleared⟩ := live_parent_stays horderly hnamed heirDeeds hstrict
  obtain ⟨_, hend', _⟩ := live_parent_stays horderly hnamed (heirDeeds.take 5) hstrict'
  refine ⟨horderly, hnamed, hstrict, hlives, ?_, ?_, ?_⟩
  · rw [hend' 1 hlives', hfirst]
    rfl
  · refine ((hcleared (heirDeeds.take 5) .collect [.attach 1 2] rfl).2 rfl).2 0 |>.mp ?_
    decide +kernel
  · rw [hend 1 hlives, hsecond]
    rfl

end SheetLint
