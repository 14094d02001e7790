import FluentGrammar.Proofs.Automaton.Numbering
import FluentGrammar.Proofs.Automaton.Lookaheads

/-
  The states found with a queue, kernels and lookaheads at once. Visiting a state passes what its
  closure has on to the kernels that symbols lead to. A kernel that is new gets the next number and
  waits to be visited, and so does one whose lookaheads grow, unless it waits already. A delivery
  keeps all drafts, with their numbers and with what they have (`Grows`), and the kernels and the
  transitions of a visit are those of exploring (`deliverAll_enter`).
-/

namespace FluentGrammar

namespace ItemSet

/-- Adds all items of a set with their lookaheads. -/
def addAll (s more : ItemSet) : ItemSet := more.foldl (fun s y => s.add y.1 y.2) s

end ItemSet

namespace Analysis

/-- For every symbol that comes next in a closure, the items moved past it and what may follow
    them. -/
def deliveries (a : Analysis) (closure : ItemSet) : List (Symbol × ItemSet) :=
  (a.moves closure.items).map fun (x, kernel) => (x, a.receive closure x (bare kernel))

end Analysis

/-- Puts a transition into its place. -/
def setTransition (t : Transition) : List Transition → List Transition
  | [] => [t]
  | u :: rest =>
    if t.1 = u.1 then t :: rest
    else if t.1.le u.1 then t :: u :: rest
    else u :: setTransition t rest

/-- A state on the way: the items that it is known by, what may follow them so far, and whether it
    waits to be visited. -/
structure Draft where
  items : List Item
  kernel : ItemSet
  waiting : Bool

/-- The states found so far, their transitions, and the numbers of those that wait. -/
structure Worklist where
  drafts : List Draft
  rows : List (List Transition)
  queue : List Nat

namespace Worklist

/-- Adds to the lookaheads of a state, which waits from then on when they grow. -/
def extend (w : Worklist) (m : Nat) (more : ItemSet) : Worklist :=
  match w.drafts[m]? with
  | none => w
  | some d =>
    let kernel := d.kernel.addAll more
    if kernel = d.kernel ∨ d.waiting = true then
      { w with drafts := w.drafts.set m { d with kernel := kernel } }
    else
      { w with
        drafts := w.drafts.set m { d with kernel := kernel, waiting := true }
        queue := w.queue ++ [m] }

/-- A state more, which waits. -/
def push (w : Worklist) (kernel : ItemSet) : Worklist where
  drafts := w.drafts ++ [⟨kernel.items, kernel, true⟩]
  rows := w.rows ++ [[]]
  queue := w.queue ++ [w.drafts.length]

/-- A transition of state `n`. -/
def link (w : Worklist) (n : Nat) (t : Transition) : Worklist :=
  { w with rows := w.rows.modify n (setTransition t) }

/-- Passes items past a symbol on from state `n` to the state that is known by them. -/
def deliver (n : Nat) (w : Worklist) (move : Symbol × ItemSet) : Worklist :=
  match w.drafts.findIdx? (·.items == move.2.items) with
  | some m => (w.extend m move.2).link n (move.1, m)
  | none => (w.push move.2).link n (move.1, w.drafts.length)

/-- Passes on everything that a closure has. -/
def deliverAll (w : Worklist) (n : Nat) (moves : List (Symbol × ItemSet)) : Worklist :=
  moves.foldl (deliver n) w

/-- The state does not wait any more. -/
def leave (w : Worklist) (n : Nat) (queue : List Nat) : Worklist :=
  { w with drafts := w.drafts.modify n fun d => { d with waiting := false }, queue := queue }

/-- Visits the state in front of the queue. -/
def visit (a : Analysis) (w : Worklist) : Worklist :=
  match w.queue with
  | [] => w
  | n :: queue =>
    let kernel := w.drafts[n]?.elim [] Draft.kernel
    (w.leave n queue).deliverAll n (a.deliveries (a.closure kernel))

/-- Only the first state, which waits. -/
def start (a : Analysis) : Worklist where
  drafts := [⟨[a.startItem], [(a.startItem, [a.grammar.endTerminal])], true⟩]
  rows := [[]]
  queue := [0]

/-- The items of the states found so far. -/
def keys (w : Worklist) : List (List Item) := w.drafts.map Draft.items

/-- The states found so far. -/
def states (w : Worklist) : List ItemState :=
  w.drafts.zipWith (fun d row => ⟨d.kernel, row⟩) w.rows

end Worklist

/-! ## Adding to item sets -/

namespace ItemSet

variable {s more : ItemSet} {i j : Item} {o : Option TerminalId}

theorem Ordered.has_addAll (h : s.Ordered) :
    (s.addAll more).Has j o ↔ s.Has j o ∨ ∃ y ∈ more, y.1 = j ∧ ∀ t ∈ o, t ∈ y.2 := by
  induction more generalizing s with
  | nil => simp [ItemSet.addAll]
  | cons y more ih =>
    have hadd := h.add y.1 y.2
    show ((s.add y.1 y.2).addAll more).Has j o ↔ _
    rw [ih hadd, h.has_add, or_assoc]
    simp [eq_comm]

theorem Ordered.has_iff (h : s.Ordered) :
    s.Has j o ↔ ∃ y ∈ s, y.1 = j ∧ ∀ t ∈ o, t ∈ y.2 := by
  cases o with
  | none => simp [Has, items]
  | some t =>
    rw [h.has_some_iff]
    constructor
    · rintro ⟨ts, hmem, ht⟩
      exact ⟨(j, ts), hmem, rfl, by simpa using ht⟩
    · rintro ⟨⟨_, ts⟩, hmem, rfl, ht⟩
      exact ⟨ts, hmem, ht t rfl⟩

theorem Ordered.eq_map (h : s.Ordered) : s = s.items.map fun i => (i, s.lookaheads i) := by
  rw [items, List.map_map]
  refine (List.map_id s).symm.trans (List.map_congr_left fun y hy => ?_)
  show y = (y.1, s.lookaheads y.1)
  rw [lookaheads, h.lookup_eq_some_iff.2 hy, Option.getD_some]

theorem enlarges_addAll (more : ItemSet) : Enlarges weight (addAll · more) := by
  have hstep (y : Item × List TerminalId) : Enlarges weight fun s : ItemSet => s.add y.1 y.2 :=
    enlarges_add y.1 y.2
  exact Enlarges.foldl hstep more

end ItemSet

/-! ## Deliveries and exploring -/

namespace Worklist

variable {w w' : Worklist} {n m k : Nat} {d d' : Draft} {more : ItemSet} {t : Transition}
  {moves : List (Symbol × ItemSet)}

theorem getElem?_keys (h : w.drafts[k]? = some d) : w.keys[k]? = some d.items := by
  rw [keys, List.getElem?_map, h]
  rfl

@[simp] theorem rows_extend (w : Worklist) (m : Nat) (more : ItemSet) :
    (w.extend m more).rows = w.rows := by
  rw [extend]
  split
  · rfl
  · dsimp only
    split <;> rfl

@[simp] theorem keys_extend (w : Worklist) (m : Nat) (more : ItemSet) :
    (w.extend m more).keys = w.keys := by
  rw [extend]
  split
  · rfl
  · next d hd =>
    have hkey := getElem?_keys hd
    dsimp only
    split <;> rw [keys, List.map_set] <;> exact set_eq_self hkey

@[simp] theorem keys_push (w : Worklist) (more : ItemSet) :
    (w.push more).keys = w.keys ++ [more.items] := by
  simp [push, keys]

@[simp] theorem length_keys (w : Worklist) : w.keys.length = w.drafts.length :=
  List.length_map ..

theorem findIdx?_drafts (w : Worklist) (items : List Item) :
    w.drafts.findIdx? (·.items == items) = w.keys.toArray.findIdx? (· == items) := by
  simp [keys, List.findIdx?_map, Function.comp_def]

/-- The kernels that deliveries are for. -/
def kernels (moves : List (Symbol × ItemSet)) : List (Symbol × List Item) :=
  moves.map fun m => (m.1, m.2.items)

/-- Puts transitions into their places one after the other. -/
def setAll (ts row : List Transition) : List Transition :=
  ts.foldl (fun row t => setTransition t row) row

/-- A delivery enters the kernel that it is for. -/
theorem deliver_enter (hn : n < w.rows.length) (move : Symbol × ItemSet) : ∃ m k,
    (w.deliver n move).rows =
      w.rows.modify n (setTransition (move.1, m)) ++ List.replicate k [] ∧
    (w.deliver n move).drafts.length = w.drafts.length + k ∧
    ∀ rest, Analysis.enter ((move.1, move.2.items) :: rest) w.keys.toArray =
      ((move.1, m) :: (Analysis.enter rest (w.deliver n move).keys.toArray).1,
        (Analysis.enter rest (w.deliver n move).keys.toArray).2) := by
  have hfind := findIdx?_drafts w move.2.items
  cases h : w.keys.toArray.findIdx? (· == move.2.items) with
  | some m =>
    have hdeliver : w.deliver n move = (w.extend m move.2).link n (move.1, m) := by
      rw [deliver, hfind, h]
    have hkeys : ((w.extend m move.2).link n (move.1, m)).keys = w.keys := keys_extend w m move.2
    refine ⟨m, 0, ?_, ?_, fun rest => ?_⟩
    · rw [hdeliver, link, rows_extend, List.replicate_zero, List.append_nil]
    · rw [hdeliver, ← length_keys, hkeys, length_keys, Nat.add_zero]
    · rw [hdeliver, hkeys, Analysis.enter, h]
  | none =>
    have hdeliver : w.deliver n move = (w.push move.2).link n (move.1, w.drafts.length) := by
      rw [deliver, hfind, h]
    have hkeys : ((w.push move.2).link n (move.1, w.drafts.length)).keys =
        w.keys ++ [move.2.items] := keys_push w move.2
    refine ⟨w.drafts.length, 1, ?_, ?_, fun rest => ?_⟩
    · rw [hdeliver, link, push, modify_append_left hn]
      rfl
    · rw [hdeliver, ← length_keys, hkeys, List.length_append, length_keys]
      rfl
    · rw [hdeliver, hkeys, Analysis.enter, h, List.push_toArray, List.size_toArray, length_keys]

/-- Deliveries find the kernels that exploring enters, and they make the row that it gives. -/
theorem deliverAll_enter (hn : n < w.rows.length) (moves : List (Symbol × ItemSet)) :
    let entered := Analysis.enter (kernels moves) w.keys.toArray
    (w.deliverAll n moves).keys = entered.2.toList ∧ ∃ k,
      (w.deliverAll n moves).rows =
        w.rows.modify n (setAll entered.1) ++ List.replicate k [] ∧
      (w.deliverAll n moves).drafts.length = w.drafts.length + k := by
  induction moves generalizing w with
  | nil =>
    refine ⟨rfl, 0, ?_, rfl⟩
    rw [List.replicate_zero, List.append_nil]
    exact (List.modify_id n w.rows).symm
  | cons move moves ih =>
    obtain ⟨m, k, hrows, hlength, henter⟩ := deliver_enter hn move
    obtain ⟨hkeys, k', hrows', hlength'⟩ := ih (w := w.deliver n move) (by
      rw [hrows, List.length_append, List.length_modify]
      omega)
    have hentered := henter (kernels moves)
    show ((w.deliver n move).deliverAll n moves).keys =
        (Analysis.enter ((move.1, move.2.items) :: kernels moves) w.keys.toArray).2.toList ∧ ∃ k,
      ((w.deliver n move).deliverAll n moves).rows = w.rows.modify n
        (setAll (Analysis.enter ((move.1, move.2.items) :: kernels moves) w.keys.toArray).1) ++
          List.replicate k [] ∧
      ((w.deliver n move).deliverAll n moves).drafts.length = w.drafts.length + k
    rw [hentered]
    refine ⟨hkeys, k + k', ?_, by omega⟩
    rw [hrows', hrows, modify_append_left (by rwa [List.length_modify]), List.modify_modify_eq,
      List.append_assoc, ← List.replicate_add]
    rfl

/-! ## Rows -/

theorem setTransition_of_after {row : List Transition} (h : ∀ u ∈ row, u.1.Before t.1) :
    setTransition t row = row ++ [t] := by
  induction row with
  | nil => rfl
  | cons u row ih =>
    obtain ⟨hu, hrow⟩ := List.forall_mem_cons.1 h
    rw [setTransition, if_neg (Analysis.ne_of_before hu).symm,
      if_neg (Analysis.not_le_of_before hu), ih hrow]
    rfl

theorem setTransition_of_mem {row : List Transition}
    (hrow : row.Pairwise fun t u => t.1.Before u.1) (h : t ∈ row) : setTransition t row = row := by
  induction row with
  | nil => exact absurd h List.not_mem_nil
  | cons u row ih =>
    obtain ⟨hu, hrow⟩ := List.pairwise_cons.1 hrow
    rw [setTransition]
    rcases List.mem_cons.1 h with rfl | h
    · rw [if_pos rfl]
    · have hbefore := hu t h
      rw [if_neg (Analysis.ne_of_before hbefore).symm,
        if_neg (Analysis.not_le_of_before hbefore), ih hrow h]

/-- Transitions in order make a row, -/
theorem setAll_eq_append {ts row : List Transition}
    (h : (row ++ ts).Pairwise fun t u => t.1.Before u.1) : setAll ts row = row ++ ts := by
  induction ts generalizing row with
  | nil => rw [List.append_nil]; rfl
  | cons t ts ih =>
    have hlast : setTransition t row = row ++ [t] :=
      setTransition_of_after fun u hu =>
        (List.pairwise_append.1 h).2.2 u hu t List.mem_cons_self
    show setAll ts (setTransition t row) = _
    rw [hlast, ih (by simpa using h), List.append_assoc]
    rfl

/-- and a row that has them stays as it is. -/
theorem setAll_eq_self {ts row : List Transition} (hrow : row.Pairwise fun t u => t.1.Before u.1)
    (h : ∀ t ∈ ts, t ∈ row) : setAll ts row = row := by
  induction ts with
  | nil => rfl
  | cons t ts ih =>
    obtain ⟨ht, hts⟩ := List.forall_mem_cons.1 h
    show setAll ts (setTransition t row) = row
    rw [setTransition_of_mem hrow ht, ih hts]

/-- Kernels that have a row are entered again without a change. -/
theorem enter_of_isRow (kernels : Array (List Item)) {moves : List (Symbol × List Item)}
    {row : List Transition} (hnodup : kernels.toList.Nodup)
    (h : Analysis.IsRow kernels.toList moves row) :
    Analysis.enter moves kernels = (row, kernels) := by
  induction h with
  | nil => rfl
  | @cons move t moves row hmt _ ih =>
    obtain ⟨x, kernel⟩ := move
    obtain ⟨y, m⟩ := t
    obtain ⟨rfl, hget⟩ := hmt
    have hfind : kernels.findIdx? (· == kernel) = some m := by
      obtain ⟨hlt, heq⟩ := List.getElem?_eq_some_iff.1 hget
      refine Array.findIdx?_eq_some_iff_getElem.2 ⟨by simpa using hlt, by simpa using heq,
        fun j hj hbeq => ?_⟩
      have hj' : j < kernels.toList.length := Nat.lt_trans hj hlt
      have heq' : kernels.toList[j] = kernel := by simpa using hbeq
      exact Nat.ne_of_lt hj ((List.Nodup.getElem_inj_iff hnodup).1 (heq'.trans heq.symm))
    rw [Analysis.enter, hfind]
    dsimp only
    rw [ih]

/-! ## Visits and exploring -/

/-- The states found are the kernels that exploring has found when it has made the given rows,
    which are those of the states visited. -/
structure Tracks (a : Analysis) (rows : List (List Transition)) (w : Worklist) : Prop where
  explored : a.Explored w.keys rows
  rest : a.explore (Nat.pow 2 a.itemCount + 1 - rows.length) rows.length w.keys.toArray
    rows.reverse = a.skeleton
  visited : rows.length ≤ w.drafts.length
  rows : w.rows = rows ++ List.replicate (w.drafts.length - rows.length) []

variable {g : Grammar} {rows : List (List Transition)} {kernel : List Item}

theorem Tracks.length_rows {a : Analysis} (h : w.Tracks a rows) :
    w.rows.length = w.drafts.length := by
  have := h.visited
  rw [h.rows, List.length_append, List.length_replicate]
  omega

/-- Visiting the first state that has not been visited makes its row. -/
theorem Tracks.first (hg : g.Ranged) (h : w.Tracks (.ofGrammar g) rows)
    (hkernel : w.keys[rows.length]? = some kernel)
    (hmoves : kernels moves =
      (Analysis.ofGrammar g).moves ((Analysis.ofGrammar g).closureItems kernel)) :
    ∃ row, (w.deliverAll rows.length moves).Tracks (.ofGrammar g) (rows ++ [row]) := by
  have hlt : rows.length < w.drafts.length := by
    rw [← length_keys]
    exact (List.getElem?_eq_some_iff.1 hkernel).1
  obtain ⟨hkeys, k, hrows, hlength⟩ := deliverAll_enter (by rwa [h.length_rows]) moves
  rw [hmoves] at hkeys hrows
  refine ⟨(Analysis.enter ((Analysis.ofGrammar g).moves
    ((Analysis.ofGrammar g).closureItems kernel)) w.keys.toArray).1,
    by rw [hkeys]; exact h.explored.enter hg hkernel, ?_, ?_, ?_⟩
  · have hle := Analysis.length_le_of_isKernel h.explored.nodup h.explored.kernel
    rw [length_keys] at hle
    have hfuel : Nat.pow 2 (Analysis.ofGrammar g).itemCount + 1 - rows.length =
        (Nat.pow 2 (Analysis.ofGrammar g).itemCount + 1 - (rows.length + 1)) + 1 := by omega
    have hrest := h.rest
    rw [hfuel, Analysis.explore, List.getElem?_toArray, hkernel] at hrest
    rw [hkeys, List.length_append, List.length_singleton, List.reverse_concat]
    exact hrest
  · rw [hlength, List.length_append, List.length_singleton]
    omega
  · have hrow := Analysis.enter_isRow ((Analysis.ofGrammar g).moves
      ((Analysis.ofGrammar g).closureItems kernel)) w.keys.toArray
    have hpairwise := hrow.2.1.pairwise (Analysis.pairwise_moves _ _)
    obtain ⟨j, hj⟩ := Nat.exists_eq_add_of_lt hlt
    have hrest : w.drafts.length - rows.length = j + 1 := by omega
    rw [hrows, h.rows, hrest, List.replicate_succ, modify_length_append,
      setAll_eq_append (by simpa using hpairwise), hlength, List.length_append,
      List.length_singleton]
    have hsum : w.drafts.length + k - (rows.length + 1) = j + k := by omega
    rw [hsum, List.replicate_add]
    simp only [List.nil_append, List.append_assoc, List.cons_append]

/-- Visiting a state again changes no row. -/
theorem Tracks.again (h : w.Tracks (.ofGrammar g) rows) (hn : n < rows.length)
    (hkernel : w.keys[n]? = some kernel)
    (hmoves : kernels moves =
      (Analysis.ofGrammar g).moves ((Analysis.ofGrammar g).closureItems kernel)) :
    (w.deliverAll n moves).Tracks (.ofGrammar g) rows := by
  have hrow := List.getElem?_eq_getElem hn
  obtain ⟨kernel', hkernel', hisRow⟩ := h.explored.row n _ hrow
  obtain rfl := Option.some.inj (hkernel.symm.trans hkernel')
  have hlt : n < w.rows.length := by
    rw [h.length_rows]
    exact Nat.lt_of_lt_of_le hn h.visited
  obtain ⟨hkeys, k, hrows, hlength⟩ := deliverAll_enter hlt moves
  rw [hmoves, enter_of_isRow w.keys.toArray h.explored.nodup hisRow] at hkeys hrows
  have hsame : (w.deliverAll n moves).drafts.length = w.drafts.length := by
    rw [← length_keys, hkeys, length_keys]
  obtain rfl : k = 0 := by omega
  have hpairwise := hisRow.pairwise (Analysis.pairwise_moves _ _)
  refine ⟨hkeys ▸ h.explored, hkeys ▸ h.rest, hsame ▸ h.visited, ?_⟩
  rw [hrows, h.rows, modify_append_left hn,
    modify_eq_self hrow (setAll_eq_self hpairwise fun _ ht => ht), hsame]
  simp

end Worklist

end FluentGrammar
