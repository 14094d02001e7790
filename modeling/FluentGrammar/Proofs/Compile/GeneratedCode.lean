import FluentGrammar.States.Code
import FluentGrammar.Proofs.Support
import FluentGrammar.Proofs.Text.Lines

/-
  What generated code says. The code is read line by line (`Code.items`): lines open the methods of
  a state, declare a method, forward to the builder, and give the next state or the builder. The
  code of states says of every state, in order, its name, the constructor if it is the entry state,
  and for each operation, in order, a method of its name that forwards to the builder's method and
  gives what the operation leads to (`items_generateCode`). Nothing else in the code can be taken
  for one of these lines, whatever the documentation of the operations.
-/

namespace FluentGrammar

open Text Code

variable {s mark : String} {ls : List String} {cs rest : List Char} {c : CodeOptions} {o : Operation}
  {state : StateType}

namespace Code

/-! ## Reading code -/

/-- What a line of code says. -/
inductive Item where
  /-- The methods of the state follow. -/
  | state (name : String)
  /-- A method is declared. -/
  | method (name : String)
  /-- A method of the builder is called. -/
  | call (name : String)
  /-- The state is given. -/
  | next (state : String)
  /-- The builder is given. -/
  | finish
  deriving Repr, DecidableEq

/-- The characters that end a name. -/
def nameEnds : List Char := [' ', '\n', '<', '(', ':', '.']

/-- The name that a text begins with. -/
def leadingName (cs : List Char) : String :=
  String.ofList (cs.takeWhile fun x => !nameEnds.contains x)

/-- Reads a line in the body of a method, behind its indent. -/
def readBody (cs : List Char) : Option Item :=
  match "self.builder".toList.isPrefixOf? cs with
  | some [] => some .finish
  | some ('.' :: rest) => some (.call (leadingName rest))
  | some _ => none
  | none =>
    if " \x7b builder: self.builder \x7d".toList.isSuffixOf cs then some (.next (leadingName cs))
    else none

/-- Reads a line among the members of a state, behind its indent. -/
def readMember (c : CodeOptions) (cs : List Char) : Option Item :=
  match "    ".toList.isPrefixOf? cs with
  | some body => readBody body
  | none =>
    ((visibilityText c ++ "fn ").toList.isPrefixOf? cs).map fun rest => .method (leadingName rest)

/-- Reads a line. -/
def readLine (c : CodeOptions) (cs : List Char) : Option Item :=
  match "    ".toList.isPrefixOf? cs with
  | some member => readMember c member
  | none => ("impl<'b> ".toList.isPrefixOf? cs).map fun rest => .state (leadingName rest)

/-- What the lines of a code say, in order. -/
def items (c : CodeOptions) (code : String) : List Item :=
  (code.toList.splitOn '\n').filterMap (readLine c)

/-- What the lines of an operation's method have to say. -/
def operationItems (o : Operation) : List Item :=
  [.method (methodName o), .call (escapeKeyword o.method),
    match o.target with
    | .state name _ => .next name
    | .done => .finish]

/-- What the lines of a state have to say. -/
def stateItems (s : StateType) : List Item :=
  .state s.name :: ((takenNames s).map .method ++ s.operations.flatMap operationItems)

/-! ## Lines -/

/-- The name can be told from what stands behind it. -/
def Plain (s : String) : Prop := ∀ x ∈ s.toList, x ∉ nameEnds

instance (s : String) : Decidable (Plain s) := List.decidableBAll _ s.toList

theorem Plain.oneLine (h : Plain s) : OneLine s := fun hmem => h _ hmem (by decide)

theorem leadingName_append (h : Plain s) (hrest : ∀ x ∈ rest.head?, x ∈ nameEnds) :
    leadingName (s.toList ++ rest) = s := by
  have hname : ∀ x ∈ s.toList, (!nameEnds.contains x) = true := by
    intro x hx
    simpa using h x hx
  have hends : rest.takeWhile (fun x => !nameEnds.contains x) = [] := by
    cases rest with
    | nil => rfl
    | cons x rest =>
      have := hrest x rfl
      simp [this]
  rw [leadingName, List.takeWhile_append_of_pos hname, hends, List.append_nil, String.ofList_toList]

/-- The text begins with a character that ends the name before it. -/
def EndsName (s : String) : Prop := ∃ x ∈ nameEnds, s.toList.head? = some x

instance (s : String) : Decidable (EndsName s) := List.decidableBEx _ nameEnds

theorem leadingName_text (h : Plain s) (hmark : EndsName mark) (t : String) :
    leadingName (s ++ (mark ++ t)).toList = s := by
  obtain ⟨x, hx, hhead⟩ := hmark
  rw [String.toList_append, String.toList_append]
  refine leadingName_append h fun y hy => ?_
  rw [List.head?_append, hhead] at hy
  rwa [← Option.some.inj hy]

theorem isPrefixOf?_append (cs rest : List Char) : cs.isPrefixOf? (cs ++ rest) = some rest :=
  List.isPrefixOf?_eq_some_iff_append_eq.2 rfl

theorem isPrefixOf?_eq_none {x y : Char} (h : x ≠ y) (cs rest : List Char) :
    (x :: cs).isPrefixOf? (y :: rest) = none := by
  rw [List.isPrefixOf?, beq_eq_false_iff_ne.2 h]
  rfl

end Code

/-- The visibility is none or begins as `pub` does, and nothing in the options breaks a line. -/
structure CodeOptions.Legible (c : CodeOptions) : Prop where
  builder : OneLine c.builder
  visibility : OneLine c.visibility
  head : ∀ x ∈ c.visibility.toList.head?, x = 'p'

/-- The names in the code of an operation are plain, and nothing breaks a line. What the
    documentation says does not matter. -/
structure Operation.Legible (o : Operation) : Prop where
  name : Plain (methodName o)
  method : Plain (escapeKeyword o.method)
  target : ∀ name node, o.target = .state name node → Plain name
  parameters : ∀ p ∈ (partsOf o.kind).1, OneLine p.name ∧ OneLine p.type
  generics : ∀ g ∈ (partsOf o.kind).2, OneLine g.rendered ∧ ∀ d ∈ g.declaration, OneLine d

/-- The code of a state can be read. -/
structure StateType.Legible (s : StateType) : Prop where
  name : Plain s.name
  operations : ∀ o ∈ s.operations, o.Legible

namespace Code

theorem readLine_member (t : String) : readLine c ("    " ++ t).toList = readMember c t.toList := by
  rw [String.toList_append, readLine, isPrefixOf?_append]

theorem readLine_body (t : String) : readLine c ("        " ++ t).toList = readBody t.toList := by
  have hindent : "        " = "    " ++ "    " := by decide
  rw [hindent, String.append_assoc, readLine_member, String.toList_append, readMember,
    isPrefixOf?_append]

theorem readLine_eq_none {x : Char} (hblank : x ≠ ' ') (himpl : x ≠ 'i') :
    readLine c (x :: cs) = none := by
  have h1 : "    ".toList.isPrefixOf? (x :: cs) = none := isPrefixOf?_eq_none hblank.symm _ cs
  have h2 : "impl<'b> ".toList.isPrefixOf? (x :: cs) = none := isPrefixOf?_eq_none himpl.symm _ cs
  rw [readLine, h1]
  dsimp only
  rw [h2, Option.map_none]

/-- What begins with the visibility begins with `p`, unless there is no visibility. -/
theorem visibilityText_cases (hc : c.Legible) :
    visibilityText c = "" ∨ ∃ cs, (visibilityText c).toList = 'p' :: cs := by
  unfold visibilityText
  split
  · exact .inl rfl
  · next hne =>
    right
    cases hvisibility : c.visibility.toList with
    | nil => exact absurd (String.toList_eq_nil_iff.1 hvisibility ▸ rfl) hne
    | cons x cs =>
      have hx := hc.head x (by rw [hvisibility]; rfl)
      rw [String.toList_append, hvisibility, hx]
      exact ⟨_, rfl⟩

theorem readMember_eq_none (hc : c.Legible) {x : Char} (hx : x ∉ [' ', 'p', 'f']) :
    readMember c (x :: cs) = none := by
  simp only [List.mem_cons, List.not_mem_nil, or_false, not_or] at hx
  obtain ⟨hblank, hp, hf⟩ := hx
  have h1 : "    ".toList.isPrefixOf? (x :: cs) = none :=
    isPrefixOf?_eq_none (Ne.symm hblank) _ cs
  have h2 : (visibilityText c ++ "fn ").toList.isPrefixOf? (x :: cs) = none := by
    rcases visibilityText_cases hc with h | ⟨ds, h⟩
    · rw [h]
      exact isPrefixOf?_eq_none (Ne.symm hf) _ cs
    · rw [String.toList_append, h]
      exact isPrefixOf?_eq_none (Ne.symm hp) _ cs
  rw [readMember, h1]
  dsimp only
  rw [h2, Option.map_none]

theorem readMember_opening (hc : c.Legible) (rest : List Char) :
    readMember c ((visibilityText c ++ "fn ").toList ++ rest) =
      some (.method (leadingName rest)) := by
  have h : "    ".toList.isPrefixOf? ((visibilityText c ++ "fn ").toList ++ rest) = none := by
    rcases visibilityText_cases hc with h | ⟨ds, h⟩
    · rw [h]
      exact isPrefixOf?_eq_none (by decide) _ _
    · rw [String.toList_append, h]
      exact isPrefixOf?_eq_none (by decide) _ _
  rw [readMember, h]
  dsimp only
  rw [isPrefixOf?_append, Option.map_some]

theorem readLine_opening (hc : c.Legible) (t : String) :
    readLine c ("    " ++ (visibilityText c ++ ("fn " ++ t))).toList =
      some (.method (leadingName t.toList)) := by
  rw [readLine_member, ← String.append_assoc, String.toList_append]
  exact readMember_opening hc t.toList

/-! ## Operations -/

theorem filterMap_docLines (hc : c.Legible) (doc : String) :
    (docLines doc).filterMap (fun l => readLine c l.toList) = [] := by
  rw [List.filterMap_eq_nil_iff]
  intro l hl
  obtain ⟨line, -, rfl⟩ := List.mem_map.1 hl
  have hempty : "    ///" = "    " ++ "///" := by decide
  have hfull : "    /// " = "    " ++ "/// " := by decide
  split
  · rw [hempty, readLine_member]
    exact readMember_eq_none hc (by decide)
  · rw [hfull, String.append_assoc, readLine_member, String.toList_append]
    exact readMember_eq_none hc (by decide)

theorem readLine_openingLine (hc : c.Legible) (ho : o.Legible) :
    readLine c (openingLine c o).toList = some (.method (methodName o)) := by
  unfold openingLine
  generalize partsOf o.kind = parts
  obtain ⟨parameters, generics⟩ := parts
  dsimp only
  simp only [String.append_assoc]
  rw [readLine_opening hc]
  unfold declarations
  dsimp only
  split
  · rw [String.empty_append, leadingName_text ho.name (by decide)]
  · rw [String.append_assoc, String.append_assoc, leadingName_text ho.name (by decide)]

theorem readLine_forwardLine (ho : o.Legible) :
    readLine c (forwardLine o).toList = some (.call (escapeKeyword o.method)) := by
  unfold forwardLine
  generalize partsOf o.kind = parts
  obtain ⟨parameters, generics⟩ := parts
  have hstart : "        self.builder." = "        " ++ ("self.builder" ++ ".") := by decide
  have hdot : ".".toList = ['.'] := by decide
  dsimp only
  rw [hstart]
  simp only [String.append_assoc]
  rw [readLine_body, String.toList_append, readBody, isPrefixOf?_append, String.toList_append, hdot,
    List.singleton_append]
  show some (Item.call (leadingName _)) = _
  unfold turbofish
  split
  · rw [String.empty_append, leadingName_text ho.method (by decide)]
  · rw [String.append_assoc, String.append_assoc, leadingName_text ho.method (by decide)]

/-- A name that stands before a blank is not that of the builder. -/
theorem isPrefixOf?_builder (h : Plain s) (cs : List Char) :
    "self.builder".toList.isPrefixOf? (s.toList ++ ' ' :: cs) = none := by
  rw [Option.eq_none_iff_forall_ne_some]
  intro rest hrest
  rw [List.isPrefixOf?_eq_some_iff_append_eq] at hrest
  have hself : Plain "self" := by decide
  have hsplit : "self.builder".toList ++ rest =
      "self".toList ++ '.' :: ("builder".toList ++ rest) := by rfl
  rw [hsplit] at hrest
  have hname := congrArg leadingName hrest
  rw [leadingName_append hself (by simp [nameEnds]), leadingName_append h (by simp [nameEnds])]
    at hname
  obtain ⟨hchar, -⟩ := List.cons.inj (List.append_cancel_left (hname ▸ hrest))
  exact absurd hchar (by decide)

theorem readLine_resultLine (ho : o.Legible) : readLine c (resultLine o).toList =
    some (match o.target with
      | .state name _ => .next name
      | .done => .finish) := by
  rw [resultLine, readLine_body]
  cases htarget : o.target with
  | done => decide
  | state name node =>
    have hname := ho.target name node htarget
    have hblank : " \x7b builder: self.builder \x7d".toList =
        ' ' :: "\x7b builder: self.builder \x7d".toList := by decide
    dsimp only
    rw [String.toList_append, readBody, hblank, isPrefixOf?_builder hname]
    dsimp only
    rw [if_pos, leadingName_append hname (by simp [nameEnds])]
    rw [List.isSuffixOf_iff_suffix]
    exact List.suffix_append _ _

/-- The line that ends a method says nothing. -/
theorem readLine_close (hc : c.Legible) : readLine c "    \x7d".toList = none := by
  have h : "    \x7d" = "    " ++ "\x7d" := by decide
  rw [h, readLine_member]
  exact readMember_eq_none hc (by decide)

theorem filterMap_operationLines (hc : c.Legible) (ho : o.Legible) :
    (operationLines c o).filterMap (fun l => readLine c l.toList) = operationItems o := by
  rw [operationLines, List.filterMap_append, filterMap_docLines hc, List.nil_append]
  simp only [List.filterMap_cons, List.filterMap_nil, readLine_openingLine hc ho,
    readLine_forwardLine ho, readLine_resultLine ho, readLine_close hc]
  rfl

/-! ## States -/

theorem filterMap_constructorLines (hc : c.Legible) :
    (constructorLines c).filterMap (fun l => readLine c l.toList) =
      [.method constructorName] := by
  have hopening : readLine c ("    " ++ visibilityText c ++ "fn " ++ constructorName ++
      "(builder: &'b mut " ++ c.builder ++ ") -> Self \x7b").toList =
      some (.method constructorName) := by
    simp only [String.append_assoc]
    rw [readLine_opening hc, leadingName_text (by decide) (by decide)]
  have hresult : readLine c "        Self \x7b builder \x7d".toList = none := by
    have h : "        Self \x7b builder \x7d" = "        " ++ "Self \x7b builder \x7d" := by decide
    rw [h, readLine_body]
    decide
  rw [constructorLines]
  simp only [List.filterMap_cons, List.filterMap_nil, hopening, hresult, readLine_close hc]

theorem readLine_struct (hc : c.Legible) (t : String) :
    readLine c (visibilityText c ++ ("struct " ++ t)).toList = none := by
  rw [String.toList_append, String.toList_append]
  rcases visibilityText_cases hc with h | ⟨cs, h⟩
  · rw [h]
    exact readLine_eq_none (by decide) (by decide)
  · rw [h]
    exact readLine_eq_none (by decide) (by decide)

theorem readLine_field (hc : c.Legible) (t : String) :
    readLine c ("    builder: &'b mut " ++ t).toList = none := by
  have h : "    builder: &'b mut " = "    " ++ "builder: &'b mut " := by decide
  rw [h, String.append_assoc, readLine_member, String.toList_append]
  exact readMember_eq_none hc (by decide)

theorem readLine_state (h : Plain s) (t : String) :
    readLine c ("impl<'b> " ++ (s ++ ("<'b> " ++ t))).toList = some (.state s) := by
  have hblank : "    ".toList.isPrefixOf? ("impl<'b> " ++ (s ++ ("<'b> " ++ t))).toList = none := by
    rw [String.toList_append]
    exact isPrefixOf?_eq_none (by decide) _ _
  rw [readLine, hblank]
  dsimp only
  rw [String.toList_append, isPrefixOf?_append, Option.map_some, leadingName_text h (by decide)]

/-- Lines that say nothing may separate others. -/
theorem filterMap_intercalate {α β : Type} {f : α → Option β} {a : α} (h : f a = none)
    (xss : List (List α)) : ([a].intercalate xss).filterMap f = xss.flatMap (·.filterMap f) := by
  induction xss with
  | nil => rfl
  | cons xs xss ih =>
    cases xss with
    | nil => simp
    | cons ys xss =>
      rw [List.intercalate_cons_cons, List.filterMap_append, List.filterMap_append, ih]
      simp [h]

theorem filterMap_stateLines (hc : c.Legible) (hs : state.Legible) :
    (stateLines c state).filterMap (fun l => readLine c l.toList) = stateItems state := by
  have hstate : "<'b> \x7b" = "<'b> " ++ "\x7b" := by decide
  have hbrace : readLine c "\x7d".toList = none := readLine_eq_none (by decide) (by decide)
  have hempty : readLine c "".toList = none := rfl
  have hconstructor : ((if state.isEntry then [constructorLines c] else []).flatMap
      (·.filterMap fun l => readLine c l.toList)) = (takenNames state).map .method := by
    rw [takenNames]
    split
    · exact (List.append_nil _).trans (filterMap_constructorLines hc)
    · rfl
  have hoperations : (state.operations.map (operationLines c)).flatMap
      (·.filterMap fun l => readLine c l.toList) = state.operations.flatMap operationItems := by
    rw [List.flatMap_map]
    exact List.flatMap_congr fun o ho => filterMap_operationLines hc (hs.operations o ho)
  rw [stateLines, hstate]
  simp only [String.append_assoc]
  rw [List.filterMap_append, List.filterMap_append,
    filterMap_intercalate (f := fun l : String => readLine c l.toList) (a := "") hempty,
    List.flatMap_append, hconstructor, hoperations]
  simp only [List.filterMap_cons, List.filterMap_nil, readLine_struct hc, readLine_field hc, hbrace,
    hempty, readLine_state hs.name, List.append_nil]
  rfl

/-! ## Lines without line feeds -/

theorem oneLine_visibilityText (hc : c.Legible) : OneLine (visibilityText c) := by
  have hempty : OneLine "" := by decide
  have hblank : OneLine " " := by decide
  unfold visibilityText
  split
  · exact hempty
  · exact oneLine_append.2 ⟨hc.visibility, hblank⟩

/-- A list in brackets, with commas between its members. -/
theorem oneLine_bracketed (hmark : OneLine mark) (h : ∀ l ∈ ls, OneLine l) :
    OneLine (mark ++ ", ".intercalate ls ++ ">") := by
  have hcomma : OneLine ", " := by decide
  have hclose : OneLine ">" := by decide
  exact oneLine_append.2 ⟨oneLine_append.2 ⟨hmark, oneLine_intercalate hcomma h⟩, hclose⟩

theorem oneLine_declarations (ho : o.Legible) : OneLine (declarations (partsOf o.kind).2) := by
  have hempty : OneLine "" := by decide
  unfold declarations
  dsimp only
  split
  · exact hempty
  · refine oneLine_bracketed (by decide) fun d hd => ?_
    obtain ⟨g, hg, hd⟩ := List.mem_filterMap.1 hd
    exact (ho.generics g hg).2 d hd

theorem oneLine_turbofish (ho : o.Legible) : OneLine (turbofish (partsOf o.kind).2) := by
  have hempty : OneLine "" := by decide
  unfold turbofish
  split
  · exact hempty
  · exact oneLine_bracketed (by decide) (List.forall_mem_map.2 fun g hg => (ho.generics g hg).1)

theorem oneLine_parameters (ho : o.Legible) :
    OneLine (String.join ((partsOf o.kind).1.map fun p =>
      ", " ++ escapeKeyword p.name ++ ": " ++ p.type)) := by
  have hcomma : OneLine ", " := by decide
  have hcolon : OneLine ": " := by decide
  refine oneLine_join (List.forall_mem_map.2 fun p hp => ?_)
  obtain ⟨hname, htype⟩ := ho.parameters p hp
  simp only [oneLine_append, hcomma, hname.escape, hcolon, htype, and_self]

theorem oneLine_openingLine (hc : c.Legible) (ho : o.Legible) : OneLine (openingLine c o) := by
  have hreturns : OneLine (match o.target with
      | .state name _ => name ++ "<'b>"
      | .done => "&'b mut " ++ c.builder) := by
    have hborrow : OneLine "&'b mut " := by decide
    have hlifetime : OneLine "<'b>" := by decide
    cases htarget : o.target with
    | done => exact oneLine_append.2 ⟨hborrow, hc.builder⟩
    | state name node =>
      exact oneLine_append.2 ⟨(ho.target name node htarget).oneLine, hlifetime⟩
  have hindent : OneLine "    " := by decide
  have hkeyword : OneLine "fn " := by decide
  have hself : OneLine "(self" := by decide
  have harrow : OneLine ") -> " := by decide
  have hbrace : OneLine " \x7b" := by decide
  have hdeclarations := oneLine_declarations ho
  have hparameters := oneLine_parameters ho
  unfold openingLine
  generalize partsOf o.kind = parts at hdeclarations hparameters ⊢
  obtain ⟨parameters, generics⟩ := parts
  refine oneLine_append.2 ⟨oneLine_append.2 ⟨?_, hreturns⟩, hbrace⟩
  simp only [oneLine_append, hindent, oneLine_visibilityText hc, hkeyword, ho.name.oneLine,
    hdeclarations, hself, hparameters, harrow, and_self]

theorem oneLine_forwardLine (ho : o.Legible) : OneLine (forwardLine o) := by
  have hcomma : OneLine ", " := by decide
  have harguments : OneLine (", ".intercalate ((partsOf o.kind).1.map fun p =>
      escapeKeyword p.name)) :=
    oneLine_intercalate hcomma
      (List.forall_mem_map.2 fun p hp => (ho.parameters p hp).1.escape)
  have hbuilder : OneLine "        self.builder." := by decide
  have hopen : OneLine "(" := by decide
  have hclose : OneLine ");" := by decide
  unfold forwardLine
  simp only [oneLine_append, hbuilder, ho.method.oneLine, oneLine_turbofish ho, hopen, harguments,
    hclose, and_self]

theorem oneLine_resultLine (ho : o.Legible) : OneLine (resultLine o) := by
  have hindent : OneLine "        " := by decide
  have hbuilder : OneLine "self.builder" := by decide
  have hfields : OneLine " \x7b builder: self.builder \x7d" := by decide
  rw [resultLine]
  refine oneLine_append.2 ⟨hindent, ?_⟩
  cases htarget : o.target with
  | done => exact hbuilder
  | state name node => exact oneLine_append.2 ⟨(ho.target name node htarget).oneLine, hfields⟩

theorem oneLine_docLines (doc : String) : ∀ l ∈ docLines doc, OneLine l := by
  have hempty : OneLine "    ///" := by decide
  have hfull : OneLine "    /// " := by decide
  refine List.forall_mem_map.2 fun line hline => ?_
  split
  · exact hempty
  · exact oneLine_append.2 ⟨hfull, oneLine_of_mem_lines hline⟩

theorem oneLine_operationLines (hc : c.Legible) (ho : o.Legible) :
    ∀ l ∈ operationLines c o, OneLine l := by
  have hclose : OneLine "    \x7d" := by decide
  refine List.forall_mem_append.2 ⟨oneLine_docLines o.doc, ?_⟩
  simp only [List.forall_mem_cons, oneLine_openingLine hc ho, oneLine_forwardLine ho,
    oneLine_resultLine ho, hclose, true_and]
  exact List.forall_mem_nil _

theorem oneLine_constructorLines (hc : c.Legible) : ∀ l ∈ constructorLines c, OneLine l := by
  have hindent : OneLine "    " := by decide
  have hkeyword : OneLine "fn " := by decide
  have hname : OneLine constructorName := by decide
  have hopen : OneLine "(builder: &'b mut " := by decide
  have harrow : OneLine ") -> Self \x7b" := by decide
  have hresult : OneLine "        Self \x7b builder \x7d" := by decide
  have hclose : OneLine "    \x7d" := by decide
  simp only [constructorLines, List.forall_mem_cons, oneLine_append, hindent,
    oneLine_visibilityText hc, hkeyword, hname, hopen, hc.builder, harrow, hresult, hclose,
    and_self, true_and]
  exact List.forall_mem_nil _

theorem oneLine_stateLines (hc : c.Legible) (hs : state.Legible) :
    ∀ l ∈ stateLines c state, OneLine l := by
  have hempty : OneLine "" := by decide
  have hmethods : ∀ l ∈ [""].intercalate ((if state.isEntry then [constructorLines c] else []) ++
      state.operations.map (operationLines c)), OneLine l := by
    refine forall_mem_intercalate hempty (List.forall_mem_append.2 ⟨?_, ?_⟩)
    · split
      · exact List.forall_mem_singleton.2 (oneLine_constructorLines hc)
      · exact List.forall_mem_nil _
    · exact List.forall_mem_map.2 fun o ho => oneLine_operationLines hc (hs.operations o ho)
  have hstruct : OneLine "struct " := by decide
  have hopen : OneLine "<'b> \x7b" := by decide
  have hfield : OneLine "    builder: &'b mut " := by decide
  have hcomma : OneLine "," := by decide
  have hbrace : OneLine "\x7d" := by decide
  have himpl : OneLine "impl<'b> " := by decide
  refine List.forall_mem_append.2 ⟨List.forall_mem_append.2 ⟨?_, hmethods⟩,
    List.forall_mem_singleton.2 hbrace⟩
  simp only [List.forall_mem_cons, oneLine_append, oneLine_visibilityText hc, hstruct,
    hs.name.oneLine, hopen, hfield, hc.builder, hcomma, hbrace, hempty, himpl, and_self, true_and]
  exact List.forall_mem_nil _

/-! ## The code -/

/-- The lines of the remark on generated code. -/
def headerLines (c : CodeOptions) : List String :=
  if c.header then ["// @generated by snout. Do not edit.", ""] else []

/-- The lines of the code of states. -/
def codeLines (states : List StateType) (c : CodeOptions) : List String :=
  headerLines c ++ [""].intercalate (states.map (stateLines c))

theorem generateCode_eq {states : List StateType} {code : String}
    (h : generateCode states c = .ok code) : code = unlines (codeLines states c) := by
  have hheader : headerText = unlines ["// @generated by snout. Do not edit.", ""] := by decide
  have hnone : unlines [] = "" := by decide
  have hblocks := intercalate_unlines (states.map (stateLines c))
  rw [List.map_map] at hblocks
  unfold generateCode at h
  dsimp only at h
  split at h
  · cases h
  · rw [← Except.ok.inj h, codeLines, headerLines, unlines_append, ← hblocks, hheader,
      apply_ite unlines, hnone]
    simp only [Function.comp_def]

/-- The remark says nothing. -/
theorem readLine_of_mem_headerLines {l : String} (h : l ∈ headerLines c) :
    OneLine l ∧ readLine c l.toList = none := by
  have hremark : OneLine "// @generated by snout. Do not edit." := by decide
  have hempty : OneLine "" := by decide
  unfold headerLines at h
  split at h
  · rcases List.mem_cons.1 h with rfl | h
    · exact ⟨hremark, readLine_eq_none (by decide) (by decide)⟩
    · rw [List.mem_singleton.1 h]
      exact ⟨hempty, rfl⟩
  · cases h

theorem oneLine_codeLines {states : List StateType} (hc : c.Legible)
    (hstates : ∀ s ∈ states, s.Legible) : ∀ l ∈ codeLines states c, OneLine l := by
  have hempty : OneLine "" := by decide
  refine List.forall_mem_append.2 ⟨fun l hl => (readLine_of_mem_headerLines hl).1,
    forall_mem_intercalate hempty ?_⟩
  exact List.forall_mem_map.2 fun s hs => oneLine_stateLines hc (hstates s hs)

theorem filterMap_codeLines {states : List StateType} (hc : c.Legible)
    (hstates : ∀ s ∈ states, s.Legible) :
    (codeLines states c).filterMap (fun l => readLine c l.toList) = states.flatMap stateItems := by
  have hblank : readLine c "".toList = none := rfl
  rw [codeLines, List.filterMap_append,
    List.filterMap_eq_nil_iff.2 fun l hl => (readLine_of_mem_headerLines hl).2, List.nil_append,
    filterMap_intercalate (f := fun l : String => readLine c l.toList) (a := "") hblank,
    List.flatMap_map]
  exact List.flatMap_congr fun s hs => filterMap_stateLines hc (hstates s hs)

theorem items_unlines (h : ∀ l ∈ ls, OneLine l) :
    items c (unlines ls) = ls.filterMap fun l => readLine c l.toList := by
  have hempty : [[]].filterMap (readLine c) = [] := rfl
  rw [items, splitOn_unlines h, List.filterMap_append, hempty, List.append_nil, List.filterMap_map]
  rfl

end Code

/-- Generated code has, for every state in order, its name and, for every operation of the state in
    order, a method of the operation's name, which calls the builder's method and gives the next
    state, or the builder at the end. The entry state has the constructor before them. -/
theorem items_generateCode {states : List StateType} {c : CodeOptions} {code : String}
    (hc : c.Legible) (hstates : ∀ s ∈ states, s.Legible) (h : generateCode states c = .ok code) :
    Code.items c code = states.flatMap Code.stateItems := by
  rw [generateCode_eq h, items_unlines (oneLine_codeLines hc hstates),
    filterMap_codeLines hc hstates]

/-- A state with an operation that leads back to it and one that ends the chain, whose documentation
    looks like code. -/
def StateType.looping : StateType := ⟨"S0", 0,
  [⟨"Type", "r#type", "", .property, .state "S0" 0⟩,
    ⟨"RunAll", "run", "pub fn walk(self)\nself.builder", .method [⟨"to", "u8"⟩] [], .done⟩]⟩

theorem StateType.legible_looping : looping.Legible := by
  refine ⟨by decide, List.forall_mem_cons.2 ⟨?_, List.forall_mem_singleton.2 ?_⟩⟩
  · refine ⟨by decide +kernel, by decide, ?_, by decide, by decide⟩
    rintro name node ⟨⟩
    decide
  · exact ⟨by decide +kernel, by decide, nofun, by decide, by decide⟩

/-- The documentation that looks like code is not read as code. -/
theorem exists_items_generateCode : ∃ code,
    generateCode [.looping] ⟨"Builder", "pub", true⟩ = .ok code ∧
    Code.items ⟨"Builder", "pub", true⟩ code =
      [.state "S0", .method "new", .method "r#type", .call "r#type", .next "S0",
        .method "run_all", .call "run", .finish] := by
  obtain ⟨code, hcode, -⟩ := exists_eq_ok_of_map
    (show (generateCode [.looping] ⟨"Builder", "pub", true⟩).toOption.map (fun _ => ()) = some ()
      by decide +kernel)
  have hc : CodeOptions.Legible ⟨"Builder", "pub", true⟩ :=
    ⟨by decide, by decide, fun x hx => (Option.some.inj hx).symm⟩
  have hitems := items_generateCode hc (List.forall_mem_singleton.2 StateType.legible_looping) hcode
  exact ⟨code, hcode, hitems.trans (by decide +kernel)⟩

end FluentGrammar
