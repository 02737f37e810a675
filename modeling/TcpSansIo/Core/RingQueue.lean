import Mathlib

/-!
# A bounded queue in a fixed array

`RingQueue α n` keeps at most `n` entries in `n` slots, the first of them in slot `head`.  Entry
`i` (counted from the front) lies in slot `(head + i) % n`.  The invariants the index arithmetic
rests on are fields, so a queue that is out of bounds cannot be built.

`toList` is the queue as its users see it.  Every operation has one lemma that says what it does to
that list; nothing else about slots is needed outside this file.
-/

/-- At most `n` entries in `n` slots; entry `i` lies in slot `(head + i) % n`. -/
structure RingQueue (α : Type) (n : ℕ) where
  slots : Fin n → α
  head : ℕ
  len : ℕ
  head_lt : head < n
  len_le : len ≤ n

namespace RingQueue

variable {α : Type} {n : ℕ} [NeZero n]

/-! ## Operations -/

/-- The slot of entry `i`. -/
def phys (q : RingQueue α n) (i : ℕ) : Fin n := Fin.ofNat n (q.head + i)

/-- Entry `i`, if there is one. -/
def get? (q : RingQueue α n) (i : ℕ) : Option α :=
  if i < q.len then some (q.slots (q.phys i)) else none

/-- The entries from front to back. -/
def toList (q : RingQueue α n) : List α :=
  (List.range q.len).map fun i => q.slots (q.phys i)

/-- A queue without entries. -/
def empty (a : α) : RingQueue α n where
  slots := fun _ => a
  head := 0
  len := 0
  head_lt := Nat.pos_of_ne_zero (NeZero.ne n)
  len_le := Nat.zero_le n

/-- Drop every entry; the slots keep their (now dead) contents. -/
def clear (q : RingQueue α n) : RingQueue α n :=
  { q with head := 0, len := 0, head_lt := Nat.pos_of_ne_zero (NeZero.ne n),
           len_le := Nat.zero_le n }

/-- Overwrite the slot of entry `i`. -/
def set (q : RingQueue α n) (i : ℕ) (a : α) : RingQueue α n :=
  { q with slots := Function.update q.slots (q.phys i) a }

/-- Append an entry. -/
def pushBack (q : RingQueue α n) (a : α) (h : q.len < n) : RingQueue α n :=
  { q with slots := Function.update q.slots (q.phys q.len) a, len := q.len + 1, len_le := h }

/-- Drop the first entry (nothing happens on an empty queue). -/
def popFront (q : RingQueue α n) : RingQueue α n :=
  { q with head := (q.head + 1) % n, len := q.len - 1,
           head_lt := Nat.mod_lt _ (Nat.pos_of_ne_zero (NeZero.ne n)),
           len_le := le_trans (Nat.sub_le _ _) q.len_le }

/-- Move the `k` entries that end at position `j` up by one slot, last one first. -/
def shiftSlots (q : RingQueue α n) (j : ℕ) : ℕ → (Fin n → α) → (Fin n → α)
  | 0, slots => slots
  | k + 1, slots =>
    q.shiftSlots (j - 1) k (Function.update slots (q.phys j) (slots (q.phys (j - 1))))

/-- Open a gap: entries `i`, `i + 1`, … move up by one; slot `i` keeps its old contents. -/
def openGap (q : RingQueue α n) (i : ℕ) (h : q.len < n) : RingQueue α n :=
  { q with slots := q.shiftSlots q.len (q.len - i) q.slots, len := q.len + 1, len_le := h }

/-! ## Slots -/

lemma phys_inj (q : RingQueue α n) {i j : ℕ} (hi : i < n) (hj : j < n)
    (h : q.phys i = q.phys j) : i = j := by
  have h' : (q.head + i) % n = (q.head + j) % n := by
    simpa [phys, Fin.ofNat, Fin.ext_iff] using h
  have hmod : i ≡ j [MOD n] := Nat.ModEq.add_left_cancel' q.head h'
  exact Nat.ModEq.eq_of_lt_of_lt hmod hi hj

/-- Writing the slot of entry `j` changes entry `j` only. -/
lemma update_phys (q : RingQueue α n) (slots : Fin n → α) (a : α) {i j : ℕ}
    (hi : i < n) (hj : j < n) :
    Function.update slots (q.phys j) a (q.phys i) = if i = j then a else slots (q.phys i) := by
  by_cases h : i = j
  · rw [h, Function.update_self, if_pos rfl]
  · rw [Function.update_of_ne (fun heq => h (q.phys_inj hi hj heq)), if_neg h]

/-! ## The list of entries -/

@[simp] lemma length_toList (q : RingQueue α n) : q.toList.length = q.len := by
  simp [toList]

lemma get?_eq (q : RingQueue α n) (i : ℕ) : q.get? i = q.toList[i]? := by
  by_cases h : i < q.len <;> simp [get?, toList, h]

lemma getElem_toList (q : RingQueue α n) {i : ℕ} (h : i < q.toList.length) :
    q.toList[i] = q.slots (q.phys i) := by
  simp [toList]

@[simp] lemma toList_empty (a : α) : (empty a : RingQueue α n).toList = [] := rfl

@[simp] lemma toList_clear (q : RingQueue α n) : q.clear.toList = [] := rfl

@[simp] lemma len_set (q : RingQueue α n) (i : ℕ) (a : α) : (q.set i a).len = q.len := rfl

@[simp] lemma phys_set (q : RingQueue α n) (i j : ℕ) (a : α) :
    (q.set i a).phys j = q.phys j := rfl

lemma set_comm (q : RingQueue α n) {i j : ℕ} (hi : i < n) (hj : j < n) (h : i ≠ j) (a b : α) :
    (q.set i a).set j b = (q.set j b).set i a := by
  have hne : q.phys j ≠ q.phys i := fun hp => h (q.phys_inj hj hi hp).symm
  simp only [set]
  congr 1
  exact (Function.update_comm hne b a q.slots).symm

lemma toList_set (q : RingQueue α n) {i : ℕ} (hi : i < q.len) (a : α) :
    (q.set i a).toList = q.toList.set i a := by
  refine List.ext_getElem (by simp) fun j hj _ => ?_
  have hjlen : j < q.len := by simpa using hj
  have hn := q.len_le
  rw [getElem_toList, List.getElem_set, getElem_toList, phys_set]
  exact (q.update_phys q.slots a (by omega) (by omega)).trans (by simp only [eq_comm])

lemma toList_pushBack (q : RingQueue α n) (a : α) (h : q.len < n) :
    (q.pushBack a h).toList = q.toList ++ [a] := by
  refine List.ext_getElem (by simp [pushBack]) fun j hj _ => ?_
  have hjlen : j < q.len + 1 := by simpa [pushBack] using hj
  rw [getElem_toList]
  simp only [pushBack, List.getElem_append, length_toList, List.getElem_singleton]
  refine (q.update_phys q.slots a (by omega) h).trans ?_
  by_cases hlt : j < q.len
  · rw [dif_pos hlt, if_neg (by omega), getElem_toList]
  · rw [dif_neg hlt, if_pos (by omega)]

lemma toList_popFront (q : RingQueue α n) : q.popFront.toList = q.toList.tail := by
  refine List.ext_getElem (by simp [popFront]) fun j hj _ => ?_
  rw [getElem_toList, List.getElem_tail, getElem_toList]
  change q.slots (Fin.ofNat n ((q.head + 1) % n + j)) = q.slots (Fin.ofNat n (q.head + (j + 1)))
  congr 1
  simp only [Fin.ofNat, Fin.mk.injEq]
  rw [Nat.mod_add_mod]
  congr 1
  omega

/-! ## Opening a gap -/

/-- After the shift, the `k` slots up to `j` hold what the slots one below held. -/
lemma shiftSlots_apply (q : RingQueue α n) (k : ℕ) :
    ∀ (j : ℕ) (slots : Fin n → α), k ≤ j → j < n → ∀ i, i < n →
      q.shiftSlots j k slots (q.phys i) =
        if j - k < i ∧ i ≤ j then slots (q.phys (i - 1)) else slots (q.phys i) := by
  induction k with
  | zero =>
      intro j slots _ _ i _
      rw [shiftSlots, if_neg (by omega)]
  | succ k ih =>
      intro j slots hk hj i hi
      rw [shiftSlots, ih (j - 1) _ (by omega) (by omega) i hi]
      rw [q.update_phys slots _ hi hj, q.update_phys slots _ (by omega) hj]
      split_ifs <;> first | rfl | omega | (congr 2; omega)

/-- Opening a gap at `i` and filling it is insertion at `i`. -/
lemma toList_openGap_set (q : RingQueue α n) {i : ℕ} (hi : i ≤ q.len) (h : q.len < n) (a : α) :
    ((q.openGap i h).set i a).toList = q.toList.take i ++ a :: q.toList.drop i := by
  refine List.ext_getElem (by simp [openGap]; omega) fun j hj _ => ?_
  have hjlen : j < q.len + 1 := by simpa [openGap] using hj
  rw [getElem_toList, List.getElem_append]
  have hslot : ((q.openGap i h).set i a).slots (((q.openGap i h).set i a).phys j) =
      if j = i then a else q.shiftSlots q.len (q.len - i) q.slots (q.phys j) :=
    q.update_phys _ a (by omega) (by omega)
  rw [hslot, shiftSlots_apply q _ _ _ (by omega) h j (by omega)]
  simp only [List.length_take, length_toList, List.getElem_take, getElem_toList,
    List.getElem_cons, List.getElem_drop]
  by_cases hlt : j < i
  · rw [if_neg (by omega), if_neg (by omega), dif_pos (by omega)]
  · rw [dif_neg (by omega)]
    by_cases heq : j = i
    · rw [if_pos heq, dif_pos (by omega)]
    · rw [if_neg heq, if_pos (by omega), dif_neg (by omega)]
      congr 2
      omega

end RingQueue
