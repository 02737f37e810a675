import TcpSansIo.Core.FixedWidth

/-!
# Machine integers, errors, states and sequence numbers

The parts of the crate that everything else uses: `lib.rs` (sizes), `error.rs`, `state.rs`, and
the sequence-number comparisons and `Deadline` of `tcb/mod.rs`.

`u8`, `u16`, `u32` and `u64` are bit vectors, so `+` and `-` are the wrapping operations;
saturating and in-range operations come from `FixedWidth`.  A `usize` that counts things is a
natural number with its bound carried by the structure it belongs to.
-/

namespace TcpSansIo

abbrev U8 := BitVec 8
abbrev U16 := BitVec 16
abbrev U32 := BitVec 32
abbrev U64 := BitVec 64

/-- A 128-bit secret. -/
abbrev Key := Vector U8 16

/-! ## Sizes (`lib.rs`) -/

/-- Standard maximum segment size for an Ethernet-class path. -/
def MSS : U16 := 1460

/-- Maximum size of a single emitted IP/TCP datagram. -/
def MAX_PACKET : ℕ := 1500

/-- The capacities a `Tcb` is compiled for, with what the code checks of them at compile time and
in `init_in_place`.  `smallBuffers` and `std` are the crate features of those names, and
`littleEndian` is the byte order of the target.  `hash` is the keyed hash behind SYN cookies, initial
sequence numbers and timestamp offsets: `siphash24` in the code, any function in the proofs. -/
structure Params where
  BUF : ℕ
  RTX : ℕ
  TXQ : ℕ
  smallBuffers : Bool
  std : Bool
  littleEndian : Bool
  hash : Key → List U8 → U64
  buf_pow2 : ∃ k < 64, BUF = 2 ^ k
  rtx_pos : 0 < RTX
  rtx_words : 64 ∣ RTX
  rtx_le : RTX ≤ 1024
  txq_pos : 0 < TXQ
  txq_lt : TXQ < 2 ^ 64

namespace Params

variable (P : Params)

lemma buf_pos : 0 < P.BUF := by
  obtain ⟨k, -, h⟩ := P.buf_pow2
  rw [h]
  exact Nat.two_pow_pos k

instance : NeZero P.BUF := ⟨P.buf_pos.ne'⟩
instance : NeZero P.RTX := ⟨P.rtx_pos.ne'⟩
instance : NeZero P.TXQ := ⟨P.txq_pos.ne'⟩

/-- A power of two below `2 ^ 64` divides `2 ^ 64`: wrapping cursors keep their slot. -/
lemma buf_dvd : P.BUF ∣ 2 ^ 64 := by
  obtain ⟨k, hk, h⟩ := P.buf_pow2
  rw [h]
  exact pow_dvd_pow 2 hk.le

/-- Per-direction ring buffer capacity of the default build. -/
def BUF_CAP : ℕ := if P.smallBuffers then 32 * 1024 else 1048576

/-- Maximum number of disjoint out-of-order ranges tracked (`ooo.rs`). -/
def OOO_MAX_RANGES : ℕ :=
  let n := P.BUF_CAP / 2048
  if n < 32 then 32 else if n > 512 then 512 else n

end Params

/-! ## Errors (`error.rs`) -/

/-- Errors returned by the stack. -/
inductive TcpError where
  | bufferTooSmall
  | nullPointer
  | invalidState
  | malformedPacket
  | notForUs
  | wouldBlock
  | connectionReset
  | connectionClosed
  | overflow
  deriving Repr, DecidableEq

/-- How a call can fail to return a value: with an error code, or not at all (a plain operation
left the range of its type, or a loop budget ran out in a build that traps on it). -/
inductive Fault where
  | tcp (e : TcpError)
  | panic
  deriving Repr, DecidableEq

/-! ## Connection states (`state.rs`) -/

/-- TCP state machine, per RFC 9293. -/
inductive State where
  | closed
  | synSent
  | established
  | finWait1
  | finWait2
  | closing
  | timeWait
  | closeWait
  | lastAck
  | listen
  | synRcvd
  deriving Repr, DecidableEq

namespace State

/-- Whether application data may be sent in this state. -/
def canSend : State → Bool
  | established | closeWait => true
  | _ => false

/-- Whether application data may be received in this state. -/
def canRecv : State → Bool
  | established | finWait1 | finWait2 => true
  | _ => false

/-- Whether the connection is past the synchronisation point. -/
def isSynchronized : State → Bool
  | established | finWait1 | finWait2 | closing | closeWait | lastAck | timeWait => true
  | _ => false

/-- The states `maybe_send_data` and `update_persist` work in. -/
def sends : State → Bool
  | established | closeWait | finWait1 | closing | lastAck => true
  | _ => false

/-- Every state change one API call can make. -/
def debugTransitionAllowed (self next : State) : Bool :=
  self == next ||
    match self, next with
    | closed, synSent | closed, listen => true
    | listen, synRcvd | listen, established | listen, closeWait | listen, closed => true
    | synSent, established | synSent, synRcvd | synSent, closed => true
    | synRcvd, established | synRcvd, closeWait | synRcvd, finWait1 | synRcvd, listen
    | synRcvd, closed => true
    | established, finWait1 | established, closeWait | established, closed => true
    | finWait1, finWait2 | finWait1, closing | finWait1, timeWait | finWait1, closed => true
    | finWait2, timeWait | finWait2, closed => true
    | closing, timeWait | closing, closed => true
    | timeWait, closed | timeWait, listen => true
    | closeWait, lastAck | closeWait, closed => true
    | lastAck, closed => true
    | _, _ => false

end State

/-! ## Sequence numbers -/

/-- `a` after `b` on the circle of sequence numbers. -/
def seqGt (a b : U32) : Prop := 0 < (a - b).toInt

/-- `a` at or after `b`. -/
def seqGe (a b : U32) : Prop := 0 ≤ (a - b).toInt

/-- `a` at or before `b`. -/
def seqLe (a b : U32) : Prop := (a - b).toInt ≤ 0

/-- `a` before `b`. -/
def seqLt (a b : U32) : Prop := (a - b).toInt < 0

/-- `lo <= x < hi` in sequence space. -/
def seqInRange (x lo hiExclusive : U32) : Prop := (x - lo).toNat < (hiExclusive - lo).toNat

instance (a b : U32) : Decidable (seqGt a b) := inferInstanceAs (Decidable (_ < _))
instance (a b : U32) : Decidable (seqGe a b) := inferInstanceAs (Decidable (_ ≤ _))
instance (a b : U32) : Decidable (seqLe a b) := inferInstanceAs (Decidable (_ ≤ _))
instance (a b : U32) : Decidable (seqLt a b) := inferInstanceAs (Decidable (_ < _))
instance (x lo hi : U32) : Decidable (seqInRange x lo hi) := inferInstanceAs (Decidable (_ < _))

/-! The comparisons as statements about the wrapped distance, which `bv_omega` reads. -/

lemma seqGt_iff {a b : U32} : seqGt a b ↔ 0 < (a - b).toNat ∧ (a - b).toNat < 2 ^ 31 := by
  rw [seqGt, BitVec.toInt_eq_toNat_cond]
  have := (a - b).isLt
  split <;> omega

lemma seqGe_iff {a b : U32} : seqGe a b ↔ (a - b).toNat < 2 ^ 31 := by
  rw [seqGe, BitVec.toInt_eq_toNat_cond]
  have := (a - b).isLt
  split <;> omega

lemma seqLe_iff {a b : U32} : seqLe a b ↔ (a - b).toNat = 0 ∨ 2 ^ 31 ≤ (a - b).toNat := by
  rw [seqLe, BitVec.toInt_eq_toNat_cond]
  have := (a - b).isLt
  split <;> omega

lemma seqLt_iff {a b : U32} : seqLt a b ↔ 2 ^ 31 ≤ (a - b).toNat := by
  rw [seqLt, BitVec.toInt_eq_toNat_cond]
  have := (a - b).isLt
  split <;> omega

lemma seqLt_of_not_seqLe {a b : U32} (h : ¬ seqLe a b) : seqLt b a := by
  have hneg : b - a = -(a - b) := by bv_omega
  rw [seqLe_iff] at h
  rw [seqLt_iff, hneg]
  generalize a - b = x at h
  clear hneg
  bv_omega

lemma seqLt_irrefl (a : U32) : ¬ seqLt a a := by
  rw [seqLt_iff, BitVec.sub_self]
  decide

/-! Distances from a third number, which turn serial arithmetic into that of `ℕ`. -/

/-- Distances add up, unless they wrap. -/
lemma toNat_sub_le (a b c : U32) : (c - a).toNat ≤ (c - b).toNat + (b - a).toNat := by
  have hsum : c - a = (c - b) + (b - a) := by bv_omega
  rw [hsum, BitVec.toNat_add]
  exact Nat.mod_le _ _

/-- The distance between two numbers, by their distances from a third. -/
lemma toNat_sub_offset {a p x : U32} (h : (p - a).toNat ≤ (x - a).toNat) :
    (x - p).toNat = (x - a).toNat - (p - a).toNat := by
  have hdiff : x - p = (x - a) - (p - a) := by bv_omega
  rw [hdiff]
  generalize x - a = y at *
  generalize p - a = z at *
  bv_omega

/-- The distance between two numbers, by their distances from a third, either way around. -/
lemma toNat_sub_cases (a p x : U32) :
    (p - a).toNat ≤ (x - a).toNat ∧ (x - p).toNat = (x - a).toNat - (p - a).toNat ∨
      (x - a).toNat < (p - a).toNat ∧
        (x - p).toNat = 2 ^ 32 + (x - a).toNat - (p - a).toNat := by
  by_cases h : (p - a).toNat ≤ (x - a).toNat
  · exact .inl ⟨h, toNat_sub_offset h⟩
  · right
    refine ⟨by omega, ?_⟩
    have hdiff : x - p = (x - a) - (p - a) := by bv_omega
    rw [hdiff]
    generalize x - a = y at *
    generalize p - a = z at *
    bv_omega

/-- Serial comparison is comparison of distances, as long as they are below half the space. -/
lemma seqLt_offset {a x y : U32} (hx : (x - a).toNat < 2 ^ 31) (hy : (y - a).toNat < 2 ^ 31) :
    seqLt x y ↔ (x - a).toNat < (y - a).toNat := by
  have hdiff : x - y = (x - a) - (y - a) := by bv_omega
  rw [seqLt_iff, hdiff]
  bv_omega

lemma seqLe_offset {a x y : U32} (hx : (x - a).toNat < 2 ^ 31) (hy : (y - a).toNat < 2 ^ 31) :
    seqLe x y ↔ (x - a).toNat ≤ (y - a).toNat := by
  have hdiff : x - y = (x - a) - (y - a) := by bv_omega
  rw [seqLe_iff, hdiff]
  bv_omega

lemma seqGt_offset {a x y : U32} (hx : (x - a).toNat < 2 ^ 31) (hy : (y - a).toNat < 2 ^ 31) :
    seqGt x y ↔ (y - a).toNat < (x - a).toNat := by
  have hcases := toNat_sub_cases a y x
  rw [seqGt_iff]
  omega

/-! ## Deadlines -/

/-- A timer deadline: zero is "disarmed", `t + 1` is "due at `t`". -/
structure Deadline where
  raw : U64
  deriving Repr, DecidableEq

namespace Deadline

/-- Disarmed. -/
def OFF : Deadline := ⟨0⟩

/-- Due at `t` (the source's `at`). -/
def atMs (t : U64) : Deadline := ⟨FixedWidth.satAdd t 1⟩

/-- When the deadline falls due, if it is armed. -/
def get (d : Deadline) : Option U64 := if d.raw = 0 then none else some (d.raw - 1)

def isArmed (d : Deadline) : Bool := d.raw != 0

/-- The deadline has come. -/
def due (d : Deadline) (now : U64) : Bool :=
  match d.get with
  | some t => decide (t.toNat ≤ now.toNat)
  | none => false

@[simp] lemma isArmed_OFF : OFF.isArmed = false := rfl

lemma eq_OFF {d : Deadline} (h : d.isArmed = false) : d = OFF := by
  cases d
  simpa [isArmed, OFF] using h

@[simp] lemma get_OFF : OFF.get = none := rfl

@[simp] lemma due_OFF (now : U64) : OFF.due now = false := rfl

@[simp] lemma isArmed_atMs (t : U64) : (atMs t).isArmed = true := by
  have h : (FixedWidth.satAdd t 1).toNat ≠ 0 := by
    rw [FixedWidth.toNat_satAdd]
    have : (1 : U64).toNat = 1 := rfl
    omega
  simp only [atMs, isArmed, bne_iff_ne, ne_eq]
  intro hzero
  exact h (by rw [hzero]; rfl)

/-- A deadline falls due at the time it was set for, except at the last tick of the clock. -/
lemma get_atMs (t : U64) : ∃ s, (atMs t).get = some s ∧ s.toNat = min t.toNat (2 ^ 64 - 2) := by
  have hnext := FixedWidth.toNat_satAdd t 1
  have hone : (1 : U64).toNat = 1 := rfl
  have hlt := t.isLt
  refine ⟨FixedWidth.satAdd t 1 - 1, if_neg fun hzero => ?_, ?_⟩
  · have := congrArg BitVec.toNat hzero
    simp only [atMs] at this
    bv_omega
  · bv_omega

end Deadline

end TcpSansIo
