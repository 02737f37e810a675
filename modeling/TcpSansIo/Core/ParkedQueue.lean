import TcpSansIo.Core.Transition

/-!
# A bounded queue with a parked tail

A queue of at most `n` entries, and entries parked at offsets past its end: not part of the queue
yet, but in the place where they will be when the queue has grown up to them.

`Step` says what each operation does and replies.  Two operations show entries the queue knows
nothing about, `commit` and `freeRegions`: where nothing is parked, what they show is arbitrary.
-/

/-- At most `n` entries in order, and entries parked at offsets past the last of them. -/
structure ParkedQueue (α : Type) (n : ℕ) where
  queue : List α
  parked : ℕ → Option α
  fits : queue.length ≤ n
  inside : ∀ k x, parked k = some x → queue.length + k < n

namespace ParkedQueue

variable {α : Type} {n : ℕ}

/-- How many more entries fit. -/
def room (a : ParkedQueue α n) : ℕ := n - a.queue.length

def empty : ParkedQueue α n where
  queue := []
  parked := fun _ => none
  fits := Nat.zero_le n
  inside := nofun

/-- Append `l`.  What is parked behind it comes nearer by its length; what was parked under it is
forgotten. -/
def append (a : ParkedQueue α n) (l : List α) (h : l.length ≤ a.room) : ParkedQueue α n where
  queue := a.queue ++ l
  parked k := a.parked (l.length + k)
  fits := by
    have := a.fits
    rw [List.length_append]
    unfold room at h
    omega
  inside k x hk := by
    have := a.inside _ x hk
    rw [List.length_append]
    omega

/-- Drop the first `k` entries; what is parked stays where it is, counted from the end. -/
def drop (a : ParkedQueue α n) (k : ℕ) : ParkedQueue α n where
  queue := a.queue.drop k
  parked := a.parked
  fits := by
    have := a.fits
    rw [List.length_drop]
    omega
  inside j x hj := by
    have := a.inside j x hj
    rw [List.length_drop]
    omega

/-- Park `l` from `offset` on; everything else stays as it is. -/
def park (a : ParkedQueue α n) (offset : ℕ) (l : List α) (h : l.length ≤ a.room - offset) :
    ParkedQueue α n where
  queue := a.queue
  parked k := if offset ≤ k then (l[k - offset]?).or (a.parked k) else a.parked k
  fits := a.fits
  inside k x hk := by
    split at hk
    case isFalse => exact a.inside k x hk
    case isTrue hle =>
      rcases Option.or_eq_some_iff.mp hk with hl | ⟨-, ha⟩
      · have := (List.getElem?_eq_some_iff.mp hl).1
        unfold room at h
        omega
      · exact a.inside k x ha

/-- `l` shows what is parked at the first offsets, as far as anything is. -/
def Shows (a : ParkedQueue α n) (l : List α) : Prop :=
  ∀ k x, a.parked k = some x → k < l.length → l[k]? = some x

inductive Op (α : Type) where
  | write (src : List α)
  | read (cap : ℕ)
  | peek (cap : ℕ)
  | peekAt (offset cap : ℕ)
  | writeAt (offset : ℕ) (src : List α)
  | commit (k : ℕ)
  /-- Borrow the free space, and fill the two slices it comes in from their beginnings. -/
  | freeRegions (max : ℕ) (first second : List α)
  | consume (k : ℕ)
  | clear

inductive Reply (α : Type) where
  | unit
  | count (k : ℕ)
  | entries (l : List α)
  | regions (first second : List α)

inductive Step : ParkedQueue α n → Op α × Reply α → ParkedQueue α n → Prop
  | write (a : ParkedQueue α n) (src : List α) :
      Step a (.write src, .count (src.take a.room).length)
        (a.append (src.take a.room) (List.length_take_le _ _))
  | read (a : ParkedQueue α n) (cap : ℕ) :
      Step a (.read cap, .entries (a.queue.take cap)) (a.drop cap)
  | peek (a : ParkedQueue α n) (cap : ℕ) : Step a (.peek cap, .entries (a.queue.take cap)) a
  | peekAt (a : ParkedQueue α n) (offset cap : ℕ) :
      Step a (.peekAt offset cap, .entries ((a.queue.drop offset).take cap)) a
  | writeAt (a : ParkedQueue α n) (offset : ℕ) (src : List α) :
      Step a (.writeAt offset src, .count (src.take (a.room - offset)).length)
        (a.park offset (src.take (a.room - offset)) (List.length_take_le _ _))
  | commit (a : ParkedQueue α n) (k : ℕ) {l : List α} (hlen : l.length = min k a.room)
      (hl : a.Shows l) : Step a (.commit k, .count l.length) (a.append l (by omega))
  | freeRegions (a : ParkedQueue α n) (max : ℕ) (first second : List α) {l₁ l₂ : List α}
      (hlen : l₁.length + l₂.length = min max a.room) (hl : a.Shows (l₁ ++ l₂))
      (h₁ : (first.take l₁.length).length ≤ a.room - 0)
      (h₂ : (second.take l₂.length).length ≤ a.room - l₁.length) :
      Step a (.freeRegions max first second, .regions l₁ l₂)
        ((a.park 0 (first.take l₁.length) h₁).park l₁.length (second.take l₂.length) h₂)
  | consume (a : ParkedQueue α n) (k : ℕ) : Step a (.consume k, .unit) (a.drop k)
  | clear (a : ParkedQueue α n) : Step a (.clear, .unit) empty

end ParkedQueue
