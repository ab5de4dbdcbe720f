import SpaceCurve.Operand

/-!
# Grids that are full

A `Grid` is a shape and a list of entries, and nothing in its type ties the two together.  `Full g`
does: there are as many entries as the volume of the shape says.  This file reads off what rows and
comparisons are when it holds.

* `flatten_rows`, `length_of_mem_rows` — the rows of a table have its width, and they are its
  entries one after another.
* `stretch_self`, `stretch_single` — a full grid is left as it is by its own shape, and a single
  entry is repeated all over any shape.
* `commonShape?_nil`, `commonShape?_self` — a shape goes with that of a single entry and with itself.
* `Operand.relate_single` — so to compare a grid with a single number is to compare each entry with
  it.
* `anyOnSecond_eq` — on a table, `anyOnSecond` asks each row for a true entry, so that none counts
  when no entry is true.
-/

set_option autoImplicit false

namespace SpaceCurve
namespace Grid

variable {α β ε : Type}

/-- There are as many entries as the volume of the shape says. -/
def Full (g : Grid α) : Prop := g.entries.length = volume g.shape

theorem full_single (x : α) : (single x).Full := rfl

theorem Full.map {g : Grid α} (h : g.Full) (f : α → β) : (g.map f).Full := by
  rw [Full, entries_map, List.length_map, shape_map]
  exact h

theorem volume_table (n m : Nat) : volume [n, m] = n * m := by
  simp [volume]

/-! ## Rows -/

/-- A list put together from pieces of one length. -/
theorem length_flatMap_of_forall {f : α → List β} {xs : List α} {m : Nat}
    (h : ∀ x ∈ xs, (f x).length = m) : (xs.flatMap f).length = xs.length * m := by
  induction xs with
  | nil => simp
  | cons x xs ih =>
    rw [List.flatMap_cons, List.length_append, h x (by simp),
      ih fun y hy => h y (List.mem_cons_of_mem _ hy), List.length_cons, Nat.succ_mul, Nat.add_comm]

theorem length_rows {g : Grid α} {n : Nat} {rest : List Nat} (h : g.shape = n :: rest) :
    g.rows.length = n := by
  rw [rows, h]
  exact length_chunks _ _ _

theorem length_of_mem_chunks {size count : Nat} {xs row : List α} (h : xs.length = count * size)
    (hrow : row ∈ chunks size count xs) : row.length = size := by
  induction count generalizing xs with
  | zero => simp [chunks] at hrow
  | succ count ih =>
    rw [Nat.succ_mul] at h
    rcases List.mem_cons.1 hrow with rfl | hrow
    · rw [List.length_take, h]
      omega
    · exact ih (by rw [List.length_drop, h]; omega) hrow

theorem chunks_one (xs : List α) : chunks 1 xs.length xs = xs.map fun x => [x] := by
  induction xs with
  | nil => rfl
  | cons x xs ih => simpa [chunks] using ih

section

variable {g : Grid α} {n m : Nat}

theorem rows_eq (h : g.shape = [n, m]) : g.rows = chunks m n g.entries := by
  rw [rows, h]
  simp [volume]

/-- The rows of a table have its width. -/
theorem Full.length_of_mem_rows (hg : g.Full) (h : g.shape = [n, m]) {row : List α}
    (hrow : row ∈ g.rows) : row.length = m := by
  rw [Full, h, volume_table] at hg
  rw [rows_eq h] at hrow
  exact length_of_mem_chunks hg hrow

/-- The rows of a table are its entries, one after another. -/
theorem Full.flatten_rows (hg : g.Full) (h : g.shape = [n, m]) : g.rows.flatten = g.entries := by
  rw [Full, h, volume_table] at hg
  rw [rows_eq h]
  exact flatten_chunks hg

/-- The rows of a grid with a single axis have one entry each. -/
theorem Full.rows_line (hg : g.Full) (h : g.shape = [n]) :
    g.rows = g.entries.map fun x => [x] := by
  have hlen : g.entries.length = n := by
    rw [Full, h] at hg
    simpa [volume] using hg
  rw [rows, h, ← hlen]
  exact chunks_one g.entries

end

/-- On a table, a row counts when one of its entries is true. -/
theorem anyOnSecond_eq {g : Grid Bool} {n m : Nat} (hg : g.Full) (h : g.shape = [n, m]) :
    g.anyOnSecond = g.rows.map fun row => row.any id := by
  have hrow : ∀ row ∈ g.rows,
      (chunks 1 m row).foldl (List.zipWith or) [false] = [row.any id] := by
    intro row hmem
    have hfold : ∀ (xs : List Bool) (b : Bool),
        (xs.map fun x => [x]).foldl (List.zipWith or) [b] = [b || xs.any id] := by
      intro xs
      induction xs with
      | nil => simp
      | cons x xs ih =>
        intro b
        simp [ih, Bool.or_assoc]
    rw [← hg.length_of_mem_rows h hmem, chunks_one, hfold, Bool.false_or]
  rw [rows_eq h] at hrow ⊢
  have hshape : g.anyOnSecond = (chunks m n g.entries).flatMap fun row =>
      (chunks 1 m row).foldl (List.zipWith or) [false] := by
    rw [anyOnSecond, h]
    simp [volume]
  rw [hshape, List.flatMap_def, List.map_congr_left hrow, ← List.flatMap_def,
    ← List.map_eq_flatMap]

/-- No row of a table counts when no entry is true. -/
theorem count_anyOnSecond_eq_zero_iff {g : Grid Bool} {n m : Nat} (hg : g.Full)
    (h : g.shape = [n, m]) : g.anyOnSecond.count true = 0 ↔ ∀ b ∈ g.entries, b = false := by
  rw [anyOnSecond_eq hg h, ← hg.flatten_rows h, List.count_eq_zero]
  simp only [List.mem_map, List.any_eq_true, List.mem_flatten, id_eq, exists_eq_right]
  constructor
  · rintro hnone b ⟨row, hrow, hb⟩
    exact Bool.eq_false_iff.2 fun htrue => hnone ⟨row, hrow, htrue ▸ hb⟩
  · rintro hall ⟨row, hrow, htrue⟩
    cases hall true ⟨row, hrow, htrue⟩

/-! ## Common shapes -/

theorem repeatAlong_self {shape : List Nat} {entries : List α}
    (h : entries.length = volume shape) : repeatAlong (shape.zip shape) entries = entries := by
  induction shape generalizing entries with
  | nil => rfl
  | cons n rest ih =>
    have hwidth : volume ((rest.zip rest).map (·.1)) = volume rest := by
      rw [List.map_fst_zip (Nat.le_refl _)]
    rw [volume] at h
    rw [List.zip_cons_cons, repeatAlong]
    simp only [beq_self_eq_true, if_true, hwidth]
    have hrows : (chunks (volume rest) n entries).map (repeatAlong (rest.zip rest)) =
        chunks (volume rest) n entries := by
      rw [List.map_congr_left fun row hrow => ih (length_of_mem_chunks h hrow)]
      exact List.map_id' _
    rw [hrows, flatten_chunks h]

/-- A full grid stays as it is in its own shape. -/
theorem Full.stretch_self {g : Grid α} (h : g.Full) : g.stretch g.shape = g.entries := by
  rw [stretch, padTo, Nat.sub_self, List.replicate_zero, List.nil_append]
  exact repeatAlong_self h

theorem volume_ones (rank : Nat) : volume (List.replicate rank 1) = 1 := by
  induction rank with
  | zero => rfl
  | succ rank ih => rw [List.replicate_succ, volume, ih]

theorem repeatAlong_single (x : α) (shape : List Nat) :
    repeatAlong ((List.replicate shape.length 1).zip shape) [x] =
      List.replicate (volume shape) x := by
  induction shape with
  | nil => rfl
  | cons n rest ih =>
    have hwidth : volume (((List.replicate rest.length 1).zip rest).map (·.1)) = 1 := by
      rw [List.map_fst_zip (by simp)]
      exact volume_ones rest.length
    rw [List.length_cons, List.replicate_succ, List.zip_cons_cons, repeatAlong]
    simp only [hwidth, chunks, List.take_succ_cons, List.take_zero, List.map_cons, List.map_nil,
      List.flatten_cons, List.flatten_nil, List.append_nil, ih, volume]
    split
    · next hone =>
      obtain rfl := eq_of_beq hone
      rw [Nat.one_mul]
    · exact List.flatten_replicate_replicate

/-- A single entry is repeated all over the shape. -/
theorem stretch_single (x : α) (shape : List Nat) :
    (single x).stretch shape = List.replicate (volume shape) x := by
  rw [stretch, padTo, single, List.length_nil, Nat.sub_zero, List.append_nil]
  exact repeatAlong_single x shape

theorem commonAxes?_ones (shape : List Nat) :
    commonAxes? shape (List.replicate shape.length 1) = some shape := by
  induction shape with
  | nil => rfl
  | cons n rest ih =>
    rw [List.length_cons, List.replicate_succ, commonAxes?, ih]
    simp [commonLength?]

/-- Any shape goes with a single entry. -/
theorem commonShape?_nil (shape : List Nat) : commonShape? shape [] = some shape := by
  rw [commonShape?, padTo, padTo, List.length_nil, Nat.zero_sub, Nat.sub_zero, List.append_nil]
  exact commonAxes?_ones shape

theorem commonAxes?_self (shape : List Nat) : commonAxes? shape shape = some shape := by
  induction shape with
  | nil => rfl
  | cons n rest ih => simp [commonAxes?, ih, commonLength?]

theorem commonShape?_self (shape : List Nat) : commonShape? shape shape = some shape := by
  rw [commonShape?, padTo, Nat.sub_self, List.replicate_zero, List.nil_append]
  exact commonAxes?_self shape

theorem commonAxes?_ones_left (shape : List Nat) :
    commonAxes? (List.replicate shape.length 1) shape = some shape := by
  induction shape with
  | nil => rfl
  | cons n rest ih =>
    rw [List.length_cons, List.replicate_succ, commonAxes?, ih, commonLength?]
    by_cases hn : n = 1
    · simp [hn]
    · simp [hn, Ne.symm hn]

theorem commonShape?_nil_left (shape : List Nat) : commonShape? [] shape = some shape := by
  rw [commonShape?, padTo, padTo, List.length_nil, Nat.zero_sub, Nat.sub_zero, List.append_nil]
  exact commonAxes?_ones_left shape

end Grid

/-- To compare a full grid with a single number is to compare each entry with it. -/
theorem Operand.relate_single (holds : Value.Number → Value.Number → Bool) {g : Grid Float}
    (hg : g.Full) (x : Float) :
    Operand.relate holds g (.numbers (.single x)) =
      .ok (g.map fun y => holds (.real y) (.real x)) := by
  have hshape : Grid.commonShape? g.shape (Grid.single x).shape = some g.shape :=
    Grid.commonShape?_nil g.shape
  have hentries : List.zipWith (fun a b => holds (.real a) (.real b)) g.entries
      (List.replicate (Grid.volume g.shape) x) =
        g.entries.map fun y => holds (.real y) (.real x) := by
    rw [← hg, ← List.map_const', List.zipWith_map_right, List.zipWith_self]
  simp only [Operand.relate, hshape]
  rw [hg.stretch_self, Grid.stretch_single, hentries]
  rfl

end SpaceCurve
