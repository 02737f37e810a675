import TcpSansIo.Basic
import TcpSansIo.Core.RingQueue

/-!
# The egress staging ring (`tx_ring.rs`)

A bounded FIFO of packets.  A slot's buffer holds `MAX_PACKET` bytes of which the first `len` are
the packet; only those are modelled, so a slot is the list of its valid bytes, and what a failed
emission leaves in the spare slot is not visible.
-/

namespace TcpSansIo

/-- Bounded FIFO ring of `SLOTS` outbound packets. -/
abbrev TxRing (SLOTS : ℕ) := RingQueue (List U8) SLOTS

namespace TxRing

variable {SLOTS : ℕ} [NeZero SLOTS]

def new : TxRing SLOTS := RingQueue.empty []

def isEmpty (r : TxRing SLOTS) : Bool := r.len == 0

def isFull (r : TxRing SLOTS) : Bool := r.len == SLOTS

/-- The length of the head packet, if any. -/
def peekHeadLen (r : TxRing SLOTS) : Option ℕ := (r.get? 0).map List.length

/-- Stage the packet `f` writes: `false` when the ring is full, an error when `f` fails or reports
a length outside `1 ..= MAX_PACKET`. -/
def pushWith (r : TxRing SLOTS) (f : ℕ → Except TcpError (List U8)) :
    Except TcpError (Bool × TxRing SLOTS) :=
  if h : r.len = SLOTS then
    .ok (false, r)
  else
    match f MAX_PACKET with
    | .error e => .error e
    | .ok pkt =>
      if pkt.length = 0 ∨ MAX_PACKET < pkt.length then
        .error .overflow
      else
        .ok (true, r.pushBack pkt (lt_of_le_of_ne r.len_le h))

/-- Pop the head packet into a buffer of `cap` bytes. -/
def popInto (r : TxRing SLOTS) (cap : ℕ) : Except TcpError (List U8 × TxRing SLOTS) :=
  match r.get? 0 with
  | none => .ok ([], r)
  | some pkt => if cap < pkt.length then .error .bufferTooSmall else .ok (pkt, r.popFront)

/-- Pop the head packet and lend its bytes (`None` when none is pending). -/
def popWith (r : TxRing SLOTS) : Option (List U8 × TxRing SLOTS) :=
  (r.get? 0).map fun pkt => (pkt, r.popFront)

/-! ## What the operations do to the staged packets -/

/-- A push that reports `true` appends one packet, the one `f` wrote; one that reports `false`
changes nothing, and happens only when the ring is full. -/
lemma pushWith_ok {r r' : TxRing SLOTS} {f : ℕ → Except TcpError (List U8)} {b : Bool}
    (h : r.pushWith f = .ok (b, r')) :
    (b = false ∧ r.len = SLOTS ∧ r' = r) ∨
      (b = true ∧ r.len < SLOTS ∧ ∃ pkt, f MAX_PACKET = .ok pkt ∧
        1 ≤ pkt.length ∧ pkt.length ≤ MAX_PACKET ∧ r'.toList = r.toList ++ [pkt]) := by
  unfold pushWith at h
  split at h
  case isTrue hfull =>
    cases h
    exact .inl ⟨rfl, hfull, rfl⟩
  case isFalse hroom =>
    split at h
    case h_1 e he => cases h
    case h_2 pkt hpkt =>
      split at h
      case isTrue => cases h
      case isFalse hlen =>
        cases h
        refine .inr ⟨rfl, lt_of_le_of_ne r.len_le hroom, pkt, hpkt, by omega, by omega, ?_⟩
        exact RingQueue.toList_pushBack r pkt _

/-- What can make a push fail: the emission itself, or a length out of range. -/
lemma pushWith_error {r : TxRing SLOTS} {f : ℕ → Except TcpError (List U8)} {e : TcpError}
    (h : r.pushWith f = .error e) :
    f MAX_PACKET = .error e ∨
      (e = .overflow ∧ ∃ pkt, f MAX_PACKET = .ok pkt ∧
        (pkt.length = 0 ∨ MAX_PACKET < pkt.length)) := by
  unfold pushWith at h
  split at h
  case isTrue => cases h
  case isFalse =>
    split at h
    case h_1 e' he =>
      cases h
      exact .inl he
    case h_2 pkt hpkt =>
      split at h
      case isTrue hlen =>
        cases h
        exact .inr ⟨rfl, pkt, hpkt, hlen⟩
      case isFalse => cases h

end TxRing

end TcpSansIo
