import FluentGrammar.Proofs.Compile.Orderings
import FluentGrammar.Proofs.Graph.Pruning
import FluentGrammar.States.Code

/-
  Names of generated methods. Code is generated exactly if the methods of every state have distinct
  names, and otherwise the first name that is taken in the first such state is reported
  (`generateCode_names`). Two conversions of names may make different operations collide. The edges
  of a compiled state have different actions, so this only happens to states of a catalog in which
  two actions have methods of one name already.
-/

namespace FluentGrammar

variable {xs seen : List String} {x : String} {s : StateType} {d : DuplicateOperation}
  {states : List StateType} {c : CodeOptions}

/-- The first repeated member stands behind members that are new and distinct. -/
theorem Catalog.firstRepeat?_eq_some_iff : firstRepeat? seen xs = some x ↔
    ∃ before after, xs = before ++ x :: after ∧ before.Nodup ∧ (∀ y ∈ before, y ∉ seen) ∧
      (x ∈ seen ∨ x ∈ before) := by
  induction xs generalizing seen with
  | nil =>
    refine iff_of_false nofun ?_
    rintro ⟨before, after, hxs, -⟩
    simp at hxs
  | cons y rest ih =>
    simp only [firstRepeat?, List.contains_iff_mem]
    split
    · next hy =>
      constructor
      · intro h
        obtain rfl := Option.some.inj h
        exact ⟨[], rest, rfl, List.nodup_nil, List.forall_mem_nil _, .inl hy⟩
      · rintro ⟨before, after, hxs, -, hnew, -⟩
        cases before with
        | nil => exact congrArg some (List.cons.inj hxs).1
        | cons z before =>
          obtain ⟨rfl, -⟩ := List.cons.inj hxs
          exact absurd hy (hnew _ List.mem_cons_self)
    · next hy =>
      rw [ih]
      simp only [List.mem_cons, not_or]
      constructor
      · rintro ⟨before, after, rfl, hnodup, hnew, htaken⟩
        refine ⟨y :: before, after, rfl, ?_, ?_, ?_⟩
        · exact List.nodup_cons.2 ⟨fun hmem => (hnew y hmem).1 rfl, hnodup⟩
        · exact List.forall_mem_cons.2 ⟨hy, fun z hz => (hnew z hz).2⟩
        · rw [List.mem_cons]
          tauto
      · rintro ⟨before, after, hxs, hnodup, hnew, htaken⟩
        cases before with
        | nil =>
          obtain ⟨rfl, -⟩ := List.cons.inj hxs
          exact absurd (htaken.resolve_right List.not_mem_nil) hy
        | cons z before =>
          obtain ⟨rfl, rfl⟩ := List.cons.inj hxs
          obtain ⟨hz, hnodup⟩ := List.nodup_cons.1 hnodup
          refine ⟨before, after, rfl, hnodup, fun w hw => ⟨?_, ?_⟩, ?_⟩
          · rintro rfl
            exact hz hw
          · exact hnew w (List.mem_cons_of_mem _ hw)
          · rw [List.mem_cons] at htaken
            tauto

namespace Code

/-! ## States -/

/-- The methods of a state have distinct names, and those of the entry state are not named like its
    constructor. -/
structure Distinct (s : StateType) : Prop where
  nodup : (s.operations.map methodName).Nodup
  free : s.isEntry = true → constructorName ∉ s.operations.map methodName

/-- The name is the first that is taken when the operations of a state get their methods in order:
    by an operation before, or by the constructor. -/
def FirstTaken (s : StateType) (name : String) : Prop :=
  ∃ before op after, s.operations = before ++ op :: after ∧ methodName op = name ∧
    (before.map methodName).Nodup ∧
    (s.isEntry = true → constructorName ∉ before.map methodName) ∧
    (s.isEntry = true ∧ name = constructorName ∨ name ∈ before.map methodName)

theorem mem_takenNames : x ∈ takenNames s ↔ s.isEntry = true ∧ x = constructorName := by
  rw [takenNames]
  split
  · next h => simp [h]
  · next h => simp [h]

theorem not_mem_takenNames : (∀ y ∈ xs, y ∉ takenNames s) ↔
    (s.isEntry = true → constructorName ∉ xs) := by
  simp only [mem_takenNames, not_and]
  exact ⟨fun h hentry hmem => h _ hmem hentry rfl, fun h y hy hentry heq => h hentry (heq ▸ hy)⟩

theorem repeatedName?_eq_none_iff : repeatedName? s = none ↔ Distinct s := by
  rw [repeatedName?, Catalog.firstRepeat?_eq_none_iff, not_mem_takenNames]
  exact ⟨fun h => ⟨h.1, h.2⟩, fun h => ⟨h.nodup, h.free⟩⟩

theorem repeatedName?_eq_some_iff : repeatedName? s = some x ↔ FirstTaken s x := by
  rw [repeatedName?, Catalog.firstRepeat?_eq_some_iff]
  simp only [not_mem_takenNames]
  simp only [mem_takenNames]
  constructor
  · rintro ⟨before, after, hxs, hnodup, hfree, htaken⟩
    obtain ⟨ops, rest, hops, rfl, hrest⟩ := List.map_eq_append_iff.1 hxs
    obtain ⟨op, rest, rfl, rfl, rfl⟩ := List.map_eq_cons_iff.1 hrest
    exact ⟨ops, op, rest, hops, rfl, hnodup, hfree, htaken⟩
  · rintro ⟨before, op, after, hops, rfl, hnodup, hfree, htaken⟩
    refine ⟨before.map methodName, after.map methodName, ?_, hnodup, hfree, htaken⟩
    rw [hops, List.map_append, List.map_cons]

end Code

/-- The first name that is taken in the first state in which one is. -/
def DuplicateOperation.IsFirst (d : DuplicateOperation) (states : List StateType) : Prop :=
  ∃ before s after, states = before ++ s :: after ∧ (∀ s' ∈ before, Code.Distinct s') ∧
    d.state = s.name ∧ Code.FirstTaken s d.name

/-- Code is generated exactly if the methods of every state have distinct names. -/
theorem exists_generateCode_iff :
    (∃ code, generateCode states c = .ok code) ↔ ∀ s ∈ states, Code.Distinct s := by
  simp only [← Code.repeatedName?_eq_none_iff]
  unfold generateCode
  dsimp only
  split
  · next d hd =>
    refine iff_of_false nofun fun h => ?_
    obtain ⟨s, hs, hname⟩ := List.exists_of_findSome?_eq_some hd
    rw [h s hs] at hname
    cases hname
  · next hnone =>
    refine iff_of_true ⟨_, rfl⟩ fun s hs => ?_
    exact Option.map_eq_none_iff.1 (List.findSome?_eq_none_iff.1 hnone s hs)

theorem generateCode_eq_error_iff : generateCode states c = .error d ↔ d.IsFirst states := by
  have hfirst : states.findSome? (fun s => (Code.repeatedName? s).map (.mk s.name)) = some d ↔
      d.IsFirst states := by
    rw [List.findSome?_eq_some_iff]
    simp only [Option.map_eq_none_iff, Option.map_eq_some_iff, Code.repeatedName?_eq_none_iff,
      Code.repeatedName?_eq_some_iff]
    constructor
    · rintro ⟨before, s, after, hstates, ⟨name, hname, rfl⟩, hbefore⟩
      exact ⟨before, s, after, hstates, hbefore, rfl, hname⟩
    · rintro ⟨before, s, after, hstates, hbefore, hstate, hname⟩
      exact ⟨before, s, after, hstates, ⟨d.name, hname, hstate ▸ rfl⟩, hbefore⟩
  unfold generateCode
  dsimp only
  rw [← hfirst]
  split
  · next d' hd => rw [hd, Except.error.injEq, Option.some.injEq]
  · next hnone =>
    rw [hnone]
    exact iff_of_false nofun nofun

/-! ## Compiled states -/

/-- The name of the method that an action becomes. -/
def Code.actionMethod (a : Catalog.Action) : String :=
  Text.escapeKeyword (Text.snakeCase a.displayName)

namespace MergedGraph

variable {g : MergedGraph} {catalog : Catalog} {o : StateOptions} {e : Edge} {op : Operation}
  {node : Node}

/-- The method of an operation is that of the action on its edge. -/
theorem getElem?_of_operation? (h : g.operation? catalog o e = some op) :
    (catalog.actions.map Code.actionMethod)[e.terminal]? = some (Code.methodName op) := by
  obtain ⟨a, ha, rfl⟩ := Option.map_eq_some_iff.1 h
  rw [Catalog.get?] at ha
  rw [List.getElem?_map, ha]
  rfl

/-- Different actions become methods of different names, so operations on the edges of a node do. -/
theorem nodup_operations (hnode : node.edges.Pairwise fun e e' => e.terminal < e'.terminal)
    (hnames : (catalog.actions.map Code.actionMethod).Nodup) :
    ((node.edges.filterMap (g.operation? catalog o)).map Code.methodName).Nodup := by
  rw [List.Nodup, List.pairwise_map, List.pairwise_filterMap]
  refine hnode.imp fun {e e'} hlt op hop op' hop' heq => ?_
  have hop := getElem?_of_operation? hop
  have hop' := getElem?_of_operation? hop'
  have hbound := (List.getElem?_eq_some_iff.1 hop).1
  have hterminal := (List.getElem?_inj hbound hnames).1 (hop.trans (heq ▸ hop'.symm))
  exact Nat.ne_of_lt hlt hterminal

end MergedGraph

/-- The edges of a merged node have different actions. -/
theorem Compiled.Stages.pairwise_edges {rules : Rules} {catalog : Catalog} {o : CompileOptions}
    {c : Compiled} {earlier lowered built : List Diagnostic} {n : NodeId} {node : Node}
    (h : c.Stages rules catalog o earlier lowered built) (hnode : c.merged.node? n = some node) :
    node.edges.Pairwise fun e e' => e.terminal < e'.terminal := by
  rw [h.merged] at hnode
  have hsource := c.graph.minimize_mirrors.node?_eq c.graph.minimize_upright
    (MergedGraph.isLive_of_node? hnode)
  obtain ⟨source, hsource, rfl⟩ := Option.map_eq_some_iff.1 (hsource.symm.trans hnode)
  have hascending := ParseTable.ascending_graph h.graph source (List.mem_of_getElem? hsource)
  exact List.pairwise_map.2 hascending

/-- The states of a compilation have distinct methods when the actions of the catalog do. -/
theorem distinct_of_compile {source : String} {catalog : Catalog} {o : CompileOptions}
    {compiled : Compiled} (hcompile : compile source catalog o = .ok compiled)
    (hnames : (catalog.actions.map Code.actionMethod).Nodup)
    (hfree : Code.constructorName ∉ catalog.actions.map Code.actionMethod) :
    ∀ s ∈ compiled.states, Code.Distinct s := by
  obtain ⟨tree, parsed, rules, resolved, hparse, hrules⟩ := exists_rules_of_compile hcompile
  obtain ⟨lowered, built, h⟩ := stages_of_compile hparse hrules hcompile
  intro s hs
  rw [h.states] at hs
  obtain ⟨n, node, hnode, -, -, rfl⟩ := MergedGraph.mem_states_iff.1 hs
  refine ⟨MergedGraph.nodup_operations (h.pairwise_edges hnode) hnames, fun _ hmem => hfree ?_⟩
  obtain ⟨op, hop, hname⟩ := List.mem_map.1 hmem
  obtain ⟨e, -, hop⟩ := List.mem_filterMap.1 hop
  rw [← hname]
  exact List.mem_of_getElem? (MergedGraph.getElem?_of_operation? hop)

/-- Code is generated for states exactly if the methods of each of them have distinct names, none of
    which is the name of the constructor in the entry state. Otherwise the first name that is taken
    in the first such state is reported. For the states of a compilation there is code when no two
    actions of the catalog have methods of one name and none is named like the constructor. -/
theorem generateCode_names (states : List StateType) (c : CodeOptions) :
    ((∃ code, generateCode states c = .ok code) ↔ ∀ s ∈ states,
      (s.operations.map Code.methodName).Nodup ∧
        (s.node = 0 → "new" ∉ s.operations.map Code.methodName)) ∧
    (∀ d, generateCode states c = .error d ↔ d.IsFirst states) ∧
    ∀ source catalog o compiled, compile source catalog o = .ok compiled →
      (catalog.actions.map Code.actionMethod).Nodup →
      "new" ∉ catalog.actions.map Code.actionMethod →
      ∃ code, generateCode compiled.states c = .ok code := by
  refine ⟨exists_generateCode_iff.trans (forall₂_congr fun s _ => ?_),
    fun d => generateCode_eq_error_iff, fun source catalog o compiled hcompile hnames hfree => ?_⟩
  · constructor
    · intro h
      exact ⟨h.nodup, fun hnode => h.free (beq_iff_eq.2 hnode)⟩
    · intro h
      exact ⟨h.1, fun hentry => h.2 (beq_iff_eq.1 hentry)⟩
  · exact exists_generateCode_iff.2 (distinct_of_compile hcompile hnames hfree)

/-- Two spellings of one name: both methods are called `http_server`. -/
example : generateCode [⟨"S", 1, [⟨"HTTPServer", "a", "", .property, .done⟩,
    ⟨"HttpServer", "b", "", .property, .done⟩]⟩] ⟨"B", "", false⟩ =
      .error ⟨"S", "http_server"⟩ := by
  decide +kernel

/-- The states of `s : X T+ | s X ;` have methods `x` and `t`. -/
theorem exists_compile_leftRecursive_names : ∃ compiled code,
    compile "s : X T+ | s X ;" Rules.twoActions {} = .ok compiled ∧
      (Rules.twoActions.actions.map Code.actionMethod).Nodup ∧
      "new" ∉ Rules.twoActions.actions.map Code.actionMethod ∧
      (compiled.states.map fun s => s.operations.map Code.methodName) =
        [["x"], ["t"], ["x", "t"], ["x"]] ∧
      generateCode compiled.states ⟨"Builder", "pub", true⟩ = .ok code := by
  obtain ⟨tree, compiled, hparse, hrules, hcompile, hmethods⟩ :=
    exists_compile (o := {}) front_leftRecursive
      (show (Rules.leftRecursive.compile Rules.twoActions {} []).toOption.map (fun c =>
        c.states.map fun s => s.operations.map Code.methodName) =
          some [["x"], ["t"], ["x", "t"], ["x"]] by decide +kernel)
  have hnames : Rules.twoActions.actions.map Code.actionMethod = ["x", "t"] := by decide +kernel
  have hnodup : (Rules.twoActions.actions.map Code.actionMethod).Nodup := by
    rw [hnames]
    decide
  have hfree : "new" ∉ Rules.twoActions.actions.map Code.actionMethod := by
    rw [hnames]
    decide
  obtain ⟨-, -, hcompiled⟩ := generateCode_names compiled.states ⟨"Builder", "pub", true⟩
  obtain ⟨code, hcode⟩ := hcompiled _ _ _ _ hcompile hnodup hfree
  exact ⟨compiled, code, hcompile, hnodup, hfree, hmethods, hcode⟩

end FluentGrammar
