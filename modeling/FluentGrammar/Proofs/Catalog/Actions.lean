import FluentGrammar.Catalog.Action

/-
  Actions as they are built by calls, in any order. The only call that looks at what was set before
  is the one for the display name: the id follows the display name while both are equal. That an id
  was set is not kept, so an id that is set to the display name follows it, and so does one that
  the display name is set to. With that exception the last id that is set is the id (`id_build`).
-/

namespace FluentGrammar.Catalog

/-- A call on an action that is being built. -/
inductive BuildCall where
  | name (name : String)
  | id (id : String)
  | parameter (name : String) (type : TypeDescriptor)
  | generic (type : TypeDescriptor)
  | style (style : CallStyle)
  | doc (doc : String)

namespace BuildCall

/-- The action after the call. -/
def apply (a : Action) : BuildCall → Action
  | name n => a.withName n
  | id i => a.withId i
  | parameter n type => a.withParameter n type
  | generic type => a.withGeneric type
  | style s => a.withStyle s
  | doc d => a.withDoc d

/-- The display name that the call sets. -/
def name? : BuildCall → Option String
  | name n => some n
  | _ => none

end BuildCall

namespace Action

open BuildCall

/-- The action after calls. -/
def run (a : Action) (calls : List BuildCall) : Action := calls.foldl apply a

/-- The action of a builder method after calls. -/
def build (method : String) (calls : List BuildCall) : Action := (ofMethod method).run calls

/-- The display name of an action and those that calls give it, one after the other. -/
def names (a : Action) (calls : List BuildCall) : List String :=
  a.displayName :: calls.filterMap name?

variable {a : Action} {calls : List BuildCall}

theorem run_append (a : Action) (before after : List BuildCall) :
    a.run (before ++ after) = (a.run before).run after := List.foldl_append

theorem names_ne_nil (a : Action) (calls : List BuildCall) : a.names calls ≠ [] :=
  List.cons_ne_nil _ _

theorem dropLast_names_name (a : Action) (n : String) (calls : List BuildCall) :
    (a.names (.name n :: calls)).dropLast =
      a.displayName :: ((a.withName n).names calls).dropLast := by
  have hnames : a.names (.name n :: calls) = a.displayName :: (a.withName n).names calls := rfl
  rw [hnames, List.dropLast_cons_of_ne_nil (names_ne_nil _ _)]

theorem withName_of_eq (h : a.id = a.displayName) (n : String) :
    a.withName n = { a with id := n, displayName := n } := by
  rw [withName, h, if_pos (beq_self_eq_true _)]

theorem withName_of_ne (h : a.id ≠ a.displayName) (n : String) :
    a.withName n = { a with displayName := n } := by
  rw [withName, if_neg (mt eq_of_beq h)]

/-- The display name is the last that was given. -/
theorem displayName_run (a : Action) (calls : List BuildCall) :
    (a.run calls).displayName = (a.names calls).getLast (names_ne_nil a calls) := by
  induction calls generalizing a with
  | nil => rfl
  | cons c calls ih =>
    cases c with
    | name n =>
      refine (ih (a.withName n)).trans ?_
      exact (List.getLast_cons (a := a.displayName) (names_ne_nil (a.withName n) calls)).symm
    | id x => exact ih (a.withId x)
    | parameter n type => exact ih (a.withParameter n type)
    | generic type => exact ih (a.withGeneric type)
    | style s => exact ih (a.withStyle s)
    | doc d => exact ih (a.withDoc d)

/-- An id that is the display name follows it until an id is set. -/
theorem id_run_of_eq (h : a.id = a.displayName) (hid : ∀ x, .id x ∉ calls) :
    (a.run calls).id = (a.run calls).displayName := by
  induction calls generalizing a with
  | nil => exact h
  | cons c calls ih =>
    have hcalls : ∀ x, .id x ∉ calls := fun x hx => hid x (List.mem_cons_of_mem c hx)
    refine ih ?_ hcalls
    cases c with
    | name n =>
      show (a.withName n).id = (a.withName n).displayName
      rw [withName_of_eq h]
    | id x => exact absurd List.mem_cons_self (hid x)
    | _ => exact h

/-- An id is kept when it is none of the display names that others replace. -/
theorem id_run_of_not_mem (h : a.id ∉ (a.names calls).dropLast) (hid : ∀ x, .id x ∉ calls) :
    (a.run calls).id = a.id := by
  induction calls generalizing a with
  | nil => rfl
  | cons c calls ih =>
    have hcalls : ∀ x, .id x ∉ calls := fun x hx => hid x (List.mem_cons_of_mem c hx)
    cases c with
    | name n =>
      rw [dropLast_names_name, List.mem_cons, not_or] at h
      obtain ⟨hne, h⟩ := h
      have hkept : (a.withName n).id = a.id := by rw [withName_of_ne hne]
      exact (ih (hkept ▸ h) hcalls).trans hkept
    | id x => exact absurd List.mem_cons_self (hid x)
    | _ => exact ih h hcalls

/-- An id that is one of them follows from then on. -/
theorem id_run_of_mem (h : a.id ∈ (a.names calls).dropLast) (hid : ∀ x, .id x ∉ calls) :
    (a.run calls).id = (a.run calls).displayName := by
  induction calls generalizing a with
  | nil => cases h
  | cons c calls ih =>
    have hcalls : ∀ x, .id x ∉ calls := fun x hx => hid x (List.mem_cons_of_mem c hx)
    cases c with
    | name n =>
      by_cases heq : a.id = a.displayName
      · exact id_run_of_eq heq hid
      · rw [dropLast_names_name, List.mem_cons] at h
        have hkept : (a.withName n).id = a.id := by rw [withName_of_ne heq]
        exact ih (hkept ▸ h.resolve_left heq) hcalls
    | id x => exact absurd List.mem_cons_self (hid x)
    | _ => exact ih h hcalls

/-- When no id is set, the id is the display name. When ids are set, the id is the last of them,
    unless it is a display name that was replaced since: the one that was in effect when it was set,
    or one given later. In that case the id is the display name, too. -/
theorem id_build (method : String) (calls : List BuildCall) :
    ((∀ x, .id x ∉ calls) → (build method calls).id = (build method calls).displayName) ∧
    ∀ before x after, calls = before ++ .id x :: after → (∀ y, .id y ∉ after) →
      (x ∉ ((build method before).names after).dropLast → (build method calls).id = x) ∧
      (x ∈ ((build method before).names after).dropLast →
        (build method calls).id = (build method calls).displayName) := by
  refine ⟨fun hid => id_run_of_eq rfl hid, ?_⟩
  rintro before x after rfl hid
  -- Setting the id leaves the display name as it is.
  have hrun : build method (before ++ .id x :: after) =
      ((build method before).withId x).run after := run_append _ _ _
  rw [hrun]
  exact ⟨fun h => id_run_of_not_mem h hid, fun h => id_run_of_mem h hid⟩

/-- An id that differs from the display names is kept, and one that is set to the display name is
    not, nor is one that a display name is set to. -/
theorem id_build_radius :
    (build "set_radius" [.name "WithRadius", .id "radius", .doc "", .name "Other"]).id =
      "radius" ∧
    (build "set_radius" [.id "radius", .name "radius", .style .method, .name "Other"]).id =
      "Other" := by
  have hid (y : String) : BuildCall.id y ∉ [.doc "", .name "Other"] := by simp
  have hid' (y : String) :
      BuildCall.id y ∉ [.name "radius", .style .method, .name "Other"] := by simp
  exact ⟨((id_build "set_radius" _).2 [.name "WithRadius"] "radius" _ rfl hid).1
      (by decide +kernel),
    ((id_build "set_radius" _).2 [] "radius" _ rfl hid').2 (by decide +kernel)⟩

/-- An id that is set to what it is by default counts as not set. -/
theorem addCircle_id_lost :
    (build "add_circle" [.id "AddCircle", .name "Circle"]).id = "Circle" ∧
    ¬∀ method before x after, (∀ y, .id y ∉ after) →
      (build method (before ++ .id x :: after)).id = x := by
  have hlost : (build "add_circle" [.id "AddCircle", .name "Circle"]).id = "Circle" := by
    decide +kernel
  refine ⟨hlost, fun h => ?_⟩
  have hkept := h "add_circle" [] "AddCircle" [.name "Circle"] (by simp)
  exact absurd (hlost.symm.trans hkept) (by decide)

end Action

end FluentGrammar.Catalog
