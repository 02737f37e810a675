import TcpSansIo.Wire.OptionGrammar

/-!
# The option block, written and read back

The writer puts the options in one order and pads with NOPs; the parser takes any order, skips what
it does not know and keeps the last of each kind.

* `parse_write`: the parser reads back what the writer wrote.  The parts of the block are read one
  by one, each from a parser state that does not have it yet (`parseFrom_mss` and the four after it).
* `parse_rawLen`: whatever the parser keeps would be written to no more bytes than it was found in.
  Every option pays for itself with its own length (`rawLen_apply`).
-/

namespace TcpSansIo

open BigEndian

namespace TcpOptions

/-! ## The parts of the option block -/

/-- Kind 2: the maximum segment size. -/
def mssBytes : Option U16 → List U8
  | some mss => [2, 4] ++ bytes2 mss
  | none => []

/-- Kind 3: the window-scale shift, at most 14. -/
def wscaleBytes : Option U8 → List U8
  | some ws => [3, 3, FixedWidth.minB ws 14]
  | none => []

/-- Kind 4: SACK permitted. -/
def sackPermittedBytes (perm : Bool) : List U8 := if perm then [4, 2] else []

/-- Kind 8: the timestamps. -/
def tsBytes : Option (U32 × U32) → List U8
  | some (tsval, tsecr) => [8, 10] ++ bytes4 tsval ++ bytes4 tsecr
  | none => []

/-- Kind 5: the SACK blocks, if there are any. -/
def sackBytes (sb : SackBlocks) : List U8 :=
  if sb.isEmpty then [] else [5, BitVec.ofNat 8 (2 + 8 * sb.len)] ++ blockBytes sb.asSlice

lemma rawBytes_eq (o : TcpOptions) :
    o.rawBytes = mssBytes o.mss ++ (wscaleBytes o.wscale ++ (sackPermittedBytes o.sackPermitted ++
      (tsBytes o.ts ++ sackBytes o.sack))) := by
  rw [← List.append_assoc, ← List.append_assoc, ← List.append_assoc]
  rfl

/-! ## Reading the parts back -/

lemma parseFrom_nop (n : ℕ) (o : TcpOptions) : parseFrom (List.replicate n 1) o = .ok o := by
  induction n with
  | zero => rfl
  | succ n ih => exact ih

lemma parseFrom_mss (mss : Option U16) (rest : List U8) {o : TcpOptions} (ho : o.mss = none) :
    parseFrom (mssBytes mss ++ rest) o = parseFrom rest { o with mss := mss } := by
  cases mss with
  | none =>
    cases o
    cases ho
    rfl
  | some m => exact parseFrom_item (.mss m) rest o

lemma parseFrom_wscale {wscale : Option U8} (hw : ∀ w ∈ wscale, w.toNat ≤ 14) (rest : List U8)
    {o : TcpOptions} (ho : o.wscale = none) :
    parseFrom (wscaleBytes wscale ++ rest) o = parseFrom rest { o with wscale := wscale } := by
  cases wscale with
  | none =>
    cases o
    cases ho
    rfl
  | some w =>
    have hmin : FixedWidth.minB w 14 = w := if_pos (hw w rfl)
    have hitem := parseFrom_item (.wscale w) rest o
    simp only [OptionItem.apply, OptionItem.bytes, hmin] at hitem
    simpa only [wscaleBytes, hmin] using hitem

lemma parseFrom_sackPermitted (perm : Bool) (rest : List U8) {o : TcpOptions}
    (ho : o.sackPermitted = false) :
    parseFrom (sackPermittedBytes perm ++ rest) o =
      parseFrom rest { o with sackPermitted := perm } := by
  cases perm with
  | false =>
    cases o
    cases ho
    rfl
  | true => exact parseFrom_item .sackPermitted rest o

lemma parseFrom_ts (ts : Option (U32 × U32)) (rest : List U8) {o : TcpOptions} (ho : o.ts = none) :
    parseFrom (tsBytes ts ++ rest) o = parseFrom rest { o with ts := ts } := by
  cases ts with
  | none =>
    cases o
    cases ho
    rfl
  | some v => exact parseFrom_item (.ts v.1 v.2) rest o

lemma parseFrom_sack (sb : SackBlocks) (rest : List U8) {o : TcpOptions}
    (ho : o.sack = SackBlocks.EMPTY) :
    parseFrom (sackBytes sb ++ rest) o = parseFrom rest { o with sack := sb } := by
  by_cases hne : sb.blocks = []
  · obtain ⟨blocks, hle⟩ := sb
    cases o
    cases hne
    cases ho
    rfl
  · have hempty : ¬ sb.isEmpty = true := by simpa [SackBlocks.isEmpty] using hne
    rw [sackBytes, if_neg hempty]
    exact parseFrom_item (.sack sb hne) rest o

/-- Parsing the options in wire order with any padding gives them back. -/
lemma parseFrom_rawBytes {o : TcpOptions} (hw : ∀ w ∈ o.wscale, w.toNat ≤ 14) (n : ℕ) :
    parseFrom (o.rawBytes ++ List.replicate n 1) NONE = .ok o := by
  rw [rawBytes_eq]
  simp only [List.append_assoc]
  rw [parseFrom_mss _ _ rfl, parseFrom_wscale hw _ rfl, parseFrom_sackPermitted _ _ rfl,
    parseFrom_ts _ _ rfl, parseFrom_sack _ _ rfl]
  exact parseFrom_nop n o

/-- Parsing what was written gives the options back. -/
lemma parse_write {o : TcpOptions} {out : List U8} {cap : ℕ} (hw : ∀ w ∈ o.wscale, w.toNat ≤ 14)
    (hout : o.write cap = .ok out) : parse out = .ok o := by
  unfold write at hout
  split at hout
  · cases hout
  dsimp only at hout
  split at hout
  · cases hout
  cases hout
  exact parseFrom_rawBytes hw _

/-! ## What is kept fits where it was found -/

/-- The shift counts the parser keeps. -/
def ScaleOk (o : TcpOptions) : Prop := ∀ w ∈ o.wscale, w.toNat ≤ 14

/-- An option adds at most its own length to what the options found take up. -/
lemma rawLen_apply (x : OptionItem) (o : TcpOptions) :
    (x.apply o).rawLen ≤ o.rawLen + x.bytes.length := by
  -- one of the five parts is replaced by the option's own
  have part : ∀ a b c d e n : ℕ, n + b + c + d + e ≤ a + b + c + d + e + n ∧
      a + n + c + d + e ≤ a + b + c + d + e + n ∧ a + b + n + d + e ≤ a + b + c + d + e + n ∧
      a + b + c + n + e ≤ a + b + c + d + e + n ∧ a + b + c + d + n ≤ a + b + c + d + e + n := by
    intros
    omega
  cases x with
  | nop | unknown => exact Nat.le_add_right _ _
  | mss v => exact (part _ _ _ _ _ 4).1
  | wscale shift => exact (part _ _ _ _ _ 3).2.1
  | sackPermitted => exact (part _ _ _ _ _ 2).2.2.1
  | ts tsval tsecr => exact (part _ _ _ _ _ 10).2.2.2.1
  | sack sb hne =>
    have hlen : (OptionItem.sack sb hne).bytes.length = 2 + 8 * sb.len := by
      rw [OptionItem.bytes, List.length_append, length_blockBytes]
      rfl
    have hne' : ¬ sb.isEmpty = true := by simpa [SackBlocks.isEmpty] using hne
    rw [hlen]
    have hpart := (part (if o.mss.isSome then 4 else 0) (if o.wscale.isSome then 3 else 0)
      (if o.sackPermitted then 2 else 0) (if o.ts.isSome then 10 else 0)
      (if o.sack.isEmpty then 0 else 2 + 8 * o.sack.len) (2 + 8 * sb.len)).2.2.2.2
    have hsack : (if sb.isEmpty = true then 0 else 2 + 8 * sb.len) = 2 + 8 * sb.len := if_neg hne'
    rw [← hsack] at hpart ⊢
    exact hpart

lemma scaleOk_apply (x : OptionItem) {o : TcpOptions} (h : o.ScaleOk) : (x.apply o).ScaleOk := by
  cases x with
  | wscale shift =>
    intro w hw
    cases hw
    rw [FixedWidth.toNat_minB]
    exact min_le_right _ _
  | nop | unknown | mss | sackPermitted | ts | sack => exact h

lemma foldl_apply (items : List OptionItem) (o : TcpOptions) :
    (items.foldl OptionItem.apply o).rawLen ≤
        o.rawLen + (items.flatMap OptionItem.bytes).length ∧
      (o.ScaleOk → (items.foldl OptionItem.apply o).ScaleOk) := by
  induction items generalizing o with
  | nil => exact ⟨le_rfl, id⟩
  | cons x items ih =>
    obtain ⟨hraw, hok⟩ := ih (x.apply o)
    have hx := rawLen_apply x o
    rw [List.flatMap_cons, List.length_append]
    exact ⟨by rw [List.foldl_cons]; omega, fun h => hok (scaleOk_apply x h)⟩

/-- The kept options never take up more than the area they were found in. -/
lemma parse_rawLen {bytes : List U8} {o : TcpOptions} (h : parse bytes = .ok o) :
    o.rawLen ≤ bytes.length := by
  obtain ⟨items, tail, rfl, -, rfl⟩ := parseLoop_items (Nat.lt_succ_self _) h
  have hraw := (foldl_apply items NONE).1
  rw [show NONE.rawLen = 0 from rfl] at hraw
  rw [List.length_append]
  omega

lemma parse_scaleOk {bytes : List U8} {o : TcpOptions} (h : parse bytes = .ok o) : o.ScaleOk := by
  obtain ⟨items, tail, rfl, -, rfl⟩ := parseLoop_items (Nat.lt_succ_self _) h
  exact (foldl_apply items NONE).2 fun w hw => by cases hw

end TcpOptions

end TcpSansIo
