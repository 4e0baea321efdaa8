import Emcs.Lib.BlockMode

/-!
# Buffers of fixed size

A buffer has a fixed number of cells. Every access checks its bounds: a computation on buffers is an
`Option`, and `none` means that it reached outside one. `Safe x P` is total correctness for such
computations: `x` reaches outside no buffer, and its result satisfies `P`.

What a program builds in a buffer it usually builds from the front, one piece after the other. The
assertion for that is `Starts l`, the cells begin with `l`; the rule of `store` says that storing at
the end of what is there appends, and the rule of `onBlocks` that a loop over the blocks in place is
the codebook mode.
-/

universe u

/-! ## Computations that check their bounds -/

/-- The computation succeeds with a result that satisfies `P`. -/
def Safe {β : Type*} (x : Option β) (P : β → Prop) : Prop := ∃ b, x = some b ∧ P b

namespace Safe

variable {β γ : Type u} {x : Option β} {P Q : β → Prop}

theorem pure {b : β} (h : P b) : Safe (some b) P := ⟨b, rfl, h⟩

/-- **The rule of sequencing.** -/
theorem bind {f : β → Option γ} {R : γ → Prop} (hx : Safe x P) (hf : ∀ b, P b → Safe (f b) R) :
    Safe (x >>= f) R := by
  obtain ⟨b, rfl, hb⟩ := hx
  exact hf b hb

theorem mono (hx : Safe x P) (h : ∀ b, P b → Q b) : Safe x Q := by
  obtain ⟨b, rfl, hb⟩ := hx
  exact ⟨b, rfl, h b hb⟩

theorem ne_none (hx : Safe x P) : x ≠ none := by
  obtain ⟨b, rfl, -⟩ := hx
  exact Option.some_ne_none b

theorem eq_some {b : β} (hx : Safe x fun b' ↦ b' = b) : x = some b := by
  obtain ⟨b', rfl, rfl⟩ := hx
  rfl

end Safe

/-! ## Buffers -/

/-- A buffer of `n` cells. -/
structure Buffer (α : Type*) (n : ℕ) where
  cells : List α
  length_cells : cells.length = n
  deriving DecidableEq

namespace Buffer

variable {α : Type*} {n : ℕ}

/-- The buffer with `a` in every cell. -/
def fill (n : ℕ) (a : α) : Buffer α n := ⟨List.replicate n a, List.length_replicate⟩

/-- The cells after a list was stored at `off`. -/
def patch (b : Buffer α n) (off : ℕ) (l : List α) (h : off + l.length ≤ n) : Buffer α n where
  cells := b.cells.take off ++ l ++ b.cells.drop (off + l.length)
  length_cells := by
    simp only [List.length_append, List.length_take, List.length_drop, b.length_cells]
    omega

/-- Store a list at `off`. -/
def store (b : Buffer α n) (off : ℕ) (l : List α) : Option (Buffer α n) :=
  if h : off + l.length ≤ n then some (b.patch off l h) else none

/-- Read `len` cells from `off` on. -/
def read (b : Buffer α n) (off len : ℕ) : Option (List α) :=
  if off + len ≤ n then some ((b.cells.drop off).take len) else none

theorem store_eq_none {b : Buffer α n} {off : ℕ} {l : List α} (h : n < off + l.length) :
    b.store off l = none :=
  dif_neg (Nat.not_le.mpr h)

/-! ## Filling a buffer from the front -/

/-- The cells begin with `l`. -/
def Starts (b : Buffer α n) (l : List α) : Prop := l <+: b.cells

theorem starts_nil (b : Buffer α n) : b.Starts [] := List.nil_prefix

theorem Starts.length_le {b : Buffer α n} {l : List α} (h : b.Starts l) : l.length ≤ n := by
  rw [← b.length_cells]
  exact List.IsPrefix.length_le h

/-- **The rule of `store`**: storing at the end of what is there appends. -/
theorem store_end {b : Buffer α n} {l l' : List α} {off : ℕ} (h : b.Starts l)
    (hoff : off = l.length) (hfit : l.length + l'.length ≤ n) :
    Safe (b.store off l') fun b' ↦ b'.Starts (l ++ l') := by
  subst hoff
  refine ⟨b.patch l.length l' hfit, dif_pos hfit, ?_⟩
  change l ++ l' <+: b.cells.take l.length ++ l' ++ _
  rw [← List.prefix_iff_eq_take.mp h]
  exact List.prefix_append _ _

theorem store_start (b : Buffer α n) {l : List α} (hfit : l.length ≤ n) :
    Safe (b.store 0 l) fun b' ↦ b'.Starts l :=
  store_end b.starts_nil rfl (by rwa [List.length_nil, Nat.zero_add])

/-- Store the elements of a list one by one, the first at `off`. -/
def storeEach (b : Buffer α n) (off : ℕ) : List α → Option (Buffer α n)
  | [] => some b
  | a :: l => do
    let b ← b.store off [a]
    b.storeEach (off + 1) l

/-- **The rule of `storeEach`.** -/
theorem storeEach_end {b : Buffer α n} {l l' : List α} {off : ℕ} (h : b.Starts l)
    (hoff : off = l.length) (hfit : l.length + l'.length ≤ n) :
    Safe (b.storeEach off l') fun b' ↦ b'.Starts (l ++ l') := by
  induction l' generalizing b l off with
  | nil =>
    rw [List.append_nil]
    exact Safe.pure h
  | cons a l' ih =>
    rw [List.length_cons] at hfit
    have hone : l.length + [a].length ≤ n := by
      rw [List.length_singleton]
      omega
    refine (store_end h hoff hone).bind fun b' hb' ↦ ?_
    have hlen : (l ++ [a]).length = l.length + 1 := List.length_append
    refine (ih hb' (by rw [hoff, hlen]) (by rw [hlen]; omega)).mono fun b'' hb'' ↦ ?_
    rwa [List.append_assoc] at hb''

theorem storeEach_start (b : Buffer α n) (l : List α) (hfit : l.length ≤ n) :
    Safe (b.storeEach 0 l) fun b' ↦ b'.Starts l := by
  refine (storeEach_end (l := []) b.starts_nil rfl ?_).mono fun b' hb' ↦ hb'
  rwa [List.length_nil, Nat.zero_add]

/-- **The rule of `read`**: a part of what was stored can be read. -/
theorem read_middle {b : Buffer α n} {p l s : List α} {off len : ℕ}
    (h : b.Starts (p ++ (l ++ s))) (hoff : off = p.length) (hlen : len = l.length) :
    Safe (b.read off len) fun l' ↦ l' = l := by
  subst hoff hlen
  obtain ⟨rest, hrest⟩ := h
  have hle : p.length + l.length ≤ n := by
    rw [← b.length_cells, ← hrest]
    simp only [List.length_append]
    omega
  refine ⟨_, if_pos hle, ?_⟩
  rw [← hrest, List.append_assoc, List.drop_left, List.append_assoc, List.take_left]

theorem read_start {b : Buffer α n} {l : List α} {len : ℕ} (h : b.Starts l)
    (hlen : len = l.length) : Safe (b.read 0 len) fun l' ↦ l' = l := by
  refine read_middle (p := []) (s := []) ?_ rfl hlen
  rwa [List.append_nil]

theorem read_take {b : Buffer α n} {l : List α} {len : ℕ} (h : b.Starts l) (hlen : len ≤ l.length) :
    Safe (b.read 0 len) fun l' ↦ l' = l.take len := by
  refine read_start ?_ (List.length_take_of_le hlen).symm
  exact (List.take_prefix len l).trans h

theorem read_one {b : Buffer α n} {l : List α} {i : ℕ} (h : b.Starts l) (hi : i < l.length) :
    Safe (b.read i 1) fun l' ↦ l' = [l[i]] := by
  refine read_middle (p := l.take i) (s := l.drop (i + 1)) ?_
    (List.length_take_of_le hi.le).symm rfl
  rwa [List.singleton_append, ← List.drop_eq_getElem_cons hi, List.take_append_drop]

/-! ## A loop over the blocks in place -/

variable {w : ℕ} [Inhabited α]

/-- Apply `f` in place to `k` blocks of `w` cells, the first of which is block `i`. -/
def onBlocksFrom (f : Vector α w → Vector α w) : ℕ → ℕ → Buffer α n → Option (Buffer α n)
  | 0, _, b => some b
  | k + 1, i, b => do
    let block ← b.read (w * i) w
    let b ← b.store (w * i) (f (BlockMode.blockOf w block)).toList
    onBlocksFrom f k (i + 1) b

/-- Apply `f` in place to the first `k` blocks of `w` cells. -/
def onBlocks (f : Vector α w → Vector α w) (k : ℕ) (b : Buffer α n) : Option (Buffer α n) :=
  onBlocksFrom f k 0 b

/-- The loop has passed `done`, `k` blocks are to do, and `rest` stands behind them. -/
theorem onBlocksFrom_rule (f : Vector α w → Vector α w) {k i : ℕ} {b : Buffer α n}
    {done todo : List α} (h : b.Starts (done ++ todo)) (hdone : done.length = w * i)
    (htodo : w * k ≤ todo.length) :
    Safe (onBlocksFrom f k i b) fun b' ↦ b'.Starts (done ++ BlockMode.ecb f k todo) := by
  induction k generalizing i b done todo with
  | zero => exact Safe.pure h
  | succ k ih =>
    rw [Nat.mul_succ] at htodo
    have hw : (todo.take w).length = w := by
      rw [List.length_take]
      omega
    have hread : Safe (b.read (w * i) w) fun l ↦ l = todo.take w := by
      refine read_middle (s := todo.drop w) ?_ hdone.symm hw.symm
      rwa [List.take_append_drop]
    have hblock : (f (BlockMode.blockOf w (todo.take w))).toList.length = w := Vector.length_toList
    have hle : done.length + todo.length ≤ n := by
      rw [← List.length_append]
      exact h.length_le
    have hfit : w * i + (f (BlockMode.blockOf w (todo.take w))).toList.length ≤ n := by
      omega
    -- the block is stored where it was read, and what stands behind it stays
    obtain ⟨rest, hrest⟩ := h
    have hstore : Safe (b.store (w * i) (f (BlockMode.blockOf w (todo.take w))).toList) fun b' ↦
        b'.Starts (done ++ (f (BlockMode.blockOf w (todo.take w))).toList ++ todo.drop w) := by
      refine ⟨b.patch _ _ hfit, dif_pos hfit, ?_⟩
      change _ <+: b.cells.take (w * i) ++ _ ++ b.cells.drop (w * i + _)
      rw [← hrest, hblock, ← hdone, List.append_assoc done todo, List.take_left]
      refine (List.prefix_append_right_inj _).mpr ?_
      rw [← List.drop_drop, List.drop_left, List.drop_append_of_le_length (by omega)]
      exact List.prefix_append _ _
    rw [onBlocksFrom]
    refine hread.bind ?_
    rintro _ rfl
    refine hstore.bind fun b' hb' ↦ ?_
    have hdone' :
        (done ++ (f (BlockMode.blockOf w (todo.take w))).toList).length = w * (i + 1) := by
      rw [List.length_append, hblock, hdone, Nat.mul_succ]
    refine (ih hb' hdone' (by rw [List.length_drop]; omega)).mono fun b'' hb'' ↦ ?_
    rwa [List.append_assoc] at hb''

/-- **The rule of the loop over the blocks.** -/
theorem onBlocks_rule (f : Vector α w → Vector α w) {k : ℕ} {b : Buffer α n} {l : List α}
    (h : b.Starts l) (hk : w * k ≤ l.length) :
    Safe (b.onBlocks f k) fun b' ↦ b'.Starts (BlockMode.ecb f k l) := by
  have hnil : b.Starts ([] ++ l) := h
  exact onBlocksFrom_rule f hnil rfl hk

end Buffer
