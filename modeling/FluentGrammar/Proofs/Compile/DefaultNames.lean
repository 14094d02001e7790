import FluentGrammar.Proofs.Catalog.Actions
import FluentGrammar.Proofs.Compile.MethodNames
import FluentGrammar.Proofs.Text.Words

/-
  Operations that are named after their builder methods. Where the methods consist of words joined
  by underscores, different ones have operations of different names, and the generated method of an
  operation is named like the builder method again, unless that is a keyword, which is escaped
  (`defaultNamed_methods`).
-/

namespace FluentGrammar

namespace Text

variable {name : String}

theorem pathKeywords_subset : pathKeywords ⊆ keywords := by decide

theorem escapeKeyword_of_not_mem (h : name ∉ keywords) : escapeKeyword name = name := by
  have hpath : name ∉ pathKeywords := fun hmem => h (pathKeywords_subset hmem)
  rw [escapeKeyword, if_neg (mt List.contains_iff_mem.1 hpath),
    if_neg (mt List.contains_iff_mem.1 h)]

theorem escapeKeyword_of_mem (h : name ∈ keywords) (hpath : name ∉ pathKeywords) :
    escapeKeyword name = "r#" ++ name := by
  rw [escapeKeyword, if_neg (mt List.contains_iff_mem.1 hpath),
    if_pos (List.contains_iff_mem.2 h)]

theorem escapeKeyword_of_mem_path (h : name ∈ pathKeywords) :
    escapeKeyword name = name ++ "_" := by
  rw [escapeKeyword, if_pos (List.contains_iff_mem.2 h)]

end Text

open Text

namespace Catalog.Action

variable {a b : Action}

/-- The action is named after its builder method. -/
def DefaultNamed (a : Action) : Prop := a.displayName = pascalCase a.method

theorem method_run (a : Action) (calls : List BuildCall) : (a.run calls).method = a.method := by
  induction calls generalizing a with
  | nil => rfl
  | cons c calls ih =>
    refine (ih (c.apply a)).trans ?_
    cases c <;> rfl

/-- An action is named after its builder method as long as no display name is given. -/
theorem defaultNamed_build {method : String} {calls : List BuildCall}
    (h : ∀ n, .name n ∉ calls) :
    (build method calls).method = method ∧ (build method calls).DefaultNamed := by
  have hmethod : (build method calls).method = method := method_run _ calls
  have hnone : calls.filterMap BuildCall.name? = [] := by
    refine List.filterMap_eq_nil_iff.2 fun c hc => ?_
    cases c with
    | name n => exact absurd hc (h n)
    | _ => rfl
  refine ⟨hmethod, ?_⟩
  rw [DefaultNamed, hmethod, build, displayName_run]
  simp only [names, hnone]
  rfl

theorem DefaultNamed.snakeCase_displayName (h : a.DefaultNamed) (hjoined : IsJoined a.method) :
    snakeCase a.displayName = a.method := by
  rw [h, snakeCase_pascalCase hjoined]

end Catalog.Action

/-- The operations of compiled states belong to actions of the catalog. -/
theorem exists_action_of_compile {source : String} {catalog : Catalog} {o : CompileOptions}
    {compiled : Compiled} (hcompile : compile source catalog o = .ok compiled) :
    ∀ s ∈ compiled.states, ∀ op ∈ s.operations,
      ∃ a ∈ catalog.actions, op.name = a.displayName ∧ op.method = a.method := by
  obtain ⟨tree, parsed, rules, resolved, hparse, hrules⟩ := exists_rules_of_compile hcompile
  obtain ⟨lowered, built, h⟩ := stages_of_compile hparse hrules hcompile
  intro s hs op hop
  rw [h.states] at hs
  obtain ⟨n, node, -, -, -, rfl⟩ := MergedGraph.mem_states_iff.1 hs
  obtain ⟨e, -, hop⟩ := List.mem_filterMap.1 hop
  obtain ⟨a, ha, rfl⟩ := Option.map_eq_some_iff.1 hop
  exact ⟨a, List.mem_of_getElem? ha, rfl, rfl⟩

/-- Raising the words of a name and taking them apart again gives the name, when these have two
    characters or more. An action that is given no display name is named after its method in this
    way. So actions that are named after different such methods have different names, and the
    operations that compiled states have for them get their method's name back: the name itself
    unless it is a keyword, else a raw name, or one with an underscore where there is no raw one. -/
theorem defaultNamed_methods :
    (∀ name, IsJoined name → snakeCase (pascalCase name) = name) ∧
    (∀ method calls, (∀ n, Catalog.BuildCall.name n ∉ calls) →
      (Catalog.Action.build method calls).method = method ∧
      (Catalog.Action.build method calls).DefaultNamed) ∧
    (∀ a b : Catalog.Action, a.DefaultNamed → b.DefaultNamed → IsJoined a.method →
      IsJoined b.method → a.method ≠ b.method → a.displayName ≠ b.displayName) ∧
    ∀ source catalog o compiled, compile source catalog o = .ok compiled →
      ∀ s ∈ compiled.states, ∀ op ∈ s.operations, ∃ a ∈ catalog.actions,
        op.name = a.displayName ∧ op.method = a.method ∧
        (a.DefaultNamed → IsJoined a.method →
          (a.method ∉ keywords → Code.methodName op = a.method) ∧
          (a.method ∈ keywords → a.method ∉ pathKeywords →
            Code.methodName op = "r#" ++ a.method) ∧
          (a.method ∈ pathKeywords → Code.methodName op = a.method ++ "_")) := by
  refine ⟨fun _ => snakeCase_pascalCase, fun _ _ => Catalog.Action.defaultNamed_build, ?_, ?_⟩
  · intro a b ha hb hja hjb hne heq
    rw [← ha.snakeCase_displayName hja, ← hb.snakeCase_displayName hjb, heq] at hne
    exact hne rfl
  · intro source catalog o compiled hcompile s hs op hop
    obtain ⟨a, ha, hname, hmethod⟩ := exists_action_of_compile hcompile s hs op hop
    refine ⟨a, ha, hname, hmethod, fun hdefault hjoined => ?_⟩
    have hop : Code.methodName op = escapeKeyword a.method := by
      rw [Code.methodName, hname, hdefault.snakeCase_displayName hjoined]
    rw [hop]
    exact ⟨escapeKeyword_of_not_mem, escapeKeyword_of_mem, escapeKeyword_of_mem_path⟩

/-! ## Two methods -/

/-- The actions of the methods `draw_line2` and `super`, under their default names. -/
def Rules.commands : Catalog :=
  ⟨[.ofMethod "draw_line2", .ofMethod "super"], by decide +kernel⟩

/-- What `s : DrawLine2 Super ;` means over them. -/
def Rules.drawn : Rules := ⟨[⟨"s", ⟨0, 1⟩, .seq [.terminal 0, .terminal 1]⟩]⟩

set_option maxRecDepth 100000 in
theorem front_drawn :
    ((Source.parse "s : DrawLine2 Super ;" Source.defaultNestingLimit).toOption.bind fun x =>
      (Rules.ofDocument Rules.commands x.1.document).toOption.map fun y => (y.1, x.2, y.2)) =
        some (Rules.drawn, [], []) := by
  cbv

theorem exists_compile_drawn : ∃ c, compile "s : DrawLine2 Super ;" Rules.commands {} = .ok c ∧
    (∃ s ∈ c.states, ∃ op ∈ s.operations, op.name = "DrawLine2" ∧ op.method = "draw_line2") ∧
    ∃ s ∈ c.states, ∃ op ∈ s.operations, op.name = "Super" ∧ op.method = "super" := by
  obtain ⟨tree, c, -, -, hcompile, hc⟩ := exists_compile (o := {}) front_drawn
    (show (Rules.drawn.compile Rules.commands {} []).toOption.map (fun c =>
      c.states.map fun s => s.operations.map fun op => (op.name, op.method)) =
        some [[("DrawLine2", "draw_line2")], [("Super", "super")]] by decide +kernel)
  have hop {ops name method} (hops : ops ∈ c.states.map fun s =>
      s.operations.map fun op => (op.name, op.method)) (hmem : (name, method) ∈ ops) :
      ∃ s ∈ c.states, ∃ op ∈ s.operations, op.name = name ∧ op.method = method := by
    obtain ⟨s, hs, rfl⟩ := List.mem_map.1 hops
    obtain ⟨op, hop, heq⟩ := List.mem_map.1 hmem
    exact ⟨s, hs, op, hop, Prod.mk.inj heq⟩
  exact ⟨c, hcompile, hop (hc ▸ List.mem_cons_self) List.mem_cons_self,
    hop (hc ▸ List.mem_cons_of_mem _ List.mem_cons_self) List.mem_cons_self⟩

theorem isJoined_drawLine2 : IsJoined "draw_line2" := by
  refine ⟨[['d', 'r', 'a', 'w'], ['l', 'i', 'n', 'e', '2']], fun w hw => ?_, by decide +kernel⟩
  obtain rfl | hw := List.mem_cons.1 hw
  · exact .cons (by decide) (List.cons_ne_nil _ _) (List.all_eq_true.1 (by decide))
  · obtain rfl := List.mem_singleton.1 hw
    exact .cons (by decide) (List.cons_ne_nil _ _) (List.all_eq_true.1 (by decide))

theorem isJoined_super : IsJoined "super" := by
  refine ⟨[['s', 'u', 'p', 'e', 'r']], fun w hw => ?_, by decide +kernel⟩
  obtain rfl := List.mem_singleton.1 hw
  exact .cons (by decide) (List.cons_ne_nil _ _) (List.all_eq_true.1 (by decide))

/-- The method of `draw_line2` has that name in the generated code. -/
theorem drawLine2_kept : snakeCase (pascalCase "draw_line2") = "draw_line2" ∧
    ∃ c s op, compile "s : DrawLine2 Super ;" Rules.commands {} = .ok c ∧ s ∈ c.states ∧
      op ∈ s.operations ∧ op.name = "DrawLine2" ∧ Code.methodName op = "draw_line2" := by
  obtain ⟨hinverse, -, -, hmethods⟩ := defaultNamed_methods
  obtain ⟨c, hcompile, ⟨s, hs, op, hop, hname, hmethod⟩, -⟩ := exists_compile_drawn
  obtain ⟨a, ha, hactionName, hactionMethod, hkept⟩ := hmethods _ _ _ c hcompile s hs op hop
  rw [hmethod] at hactionMethod
  rw [hname] at hactionName
  have hdefault : a.DefaultNamed := by
    rw [Catalog.Action.DefaultNamed, ← hactionName, ← hactionMethod]
    decide +kernel
  rw [← hactionMethod] at hkept
  exact ⟨hinverse _ isJoined_drawLine2, c, s, op, hcompile, hs, hop, hname,
    (hkept hdefault isJoined_drawLine2).1 (by decide)⟩

/-- The method of `super` cannot have that name. -/
theorem super_escaped : ∃ c s op, compile "s : DrawLine2 Super ;" Rules.commands {} = .ok c ∧
    s ∈ c.states ∧ op ∈ s.operations ∧ IsJoined op.method ∧ op.name = pascalCase op.method ∧
    Code.methodName op = "super_" ∧ Code.methodName op ≠ op.method := by
  obtain ⟨c, hcompile, -, s, hs, op, hop, hname, hmethod⟩ := exists_compile_drawn
  have hcode : Code.methodName op = "super_" := by
    rw [Code.methodName, hname]
    decide +kernel
  refine ⟨c, s, op, hcompile, hs, hop, hmethod ▸ isJoined_super, ?_, hcode, ?_⟩
  · rw [hname, hmethod]
    decide +kernel
  · rw [hcode, hmethod]
    decide

end FluentGrammar
