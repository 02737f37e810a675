import TcpSansIo.Wire.Emission

/-!
# The grammar of the option area

An option area is a sequence of options, each whole, and then either ends or goes on with an EOL
byte and anything.  `OptionItem` is one option with the lengths the grammar asks for;
`parse_grammar` says that the parser accepts exactly the areas of this form and keeps the last option
of each kind.

The parser's loop is read as one step per option: an option in front is taken off and applied
(`parseFrom_item`), and whatever a round accepts was an option in front (`parseOne_item`).
-/

namespace TcpSansIo

open BigEndian

namespace TcpOptions

/-! ## Options -/

/-- One option as it stands in the option area. -/
inductive OptionItem where
  | nop
  | mss (v : U16)
  | wscale (shift : U8)
  | sackPermitted
  | sack (sb : SackBlocks) (some : sb.blocks ≠ [])
  | ts (tsval tsecr : U32)
  /-- An option of a kind the parser does not know. -/
  | unknown (kind : U8) (body : List U8) (other : kind ∉ [0, 1, 2, 3, 4, 5, 8])
      (short : body.length + 2 < 256)

namespace OptionItem

/-- The bytes of an option: its kind, its length and its contents; a NOP is its kind alone. -/
def bytes : OptionItem → List U8
  | nop => [1]
  | mss v => [2, 4] ++ bytes2 v
  | wscale shift => [3, 3, shift]
  | sackPermitted => [4, 2]
  | sack sb _ => [5, BitVec.ofNat 8 (2 + 8 * sb.len)] ++ blockBytes sb.blocks
  | ts tsval tsecr => [8, 10] ++ bytes4 tsval ++ bytes4 tsecr
  | unknown kind body _ _ => [kind, BitVec.ofNat 8 (body.length + 2)] ++ body

/-- What an option leaves in the options found so far. -/
def apply (o : TcpOptions) : OptionItem → TcpOptions
  | nop => o
  | mss v => { o with mss := some v }
  | wscale shift => { o with wscale := some (FixedWidth.minB shift 14) }
  | sackPermitted => { o with sackPermitted := true }
  | sack sb _ => { o with sack := sb }
  | ts tsval tsecr => { o with ts := some (tsval, tsecr) }
  | unknown _ _ _ _ => o

end OptionItem

/-! ## Taking an option off the front -/

lemma parseLoop_fuel (bytes : List U8) (o : TcpOptions) {f f' : ℕ} (h : bytes.length < f)
    (h' : bytes.length < f') : parseLoop f bytes o = parseLoop f' bytes o := by
  induction f generalizing f' bytes o with
  | zero => omega
  | succ f ih =>
    obtain ⟨f', rfl⟩ : ∃ k, f' = k + 1 := ⟨f' - 1, by omega⟩
    cases bytes with
    | nil => rfl
    | cons kind rest =>
      rw [List.length_cons] at h h'
      simp only [parseLoop]
      split
      · rfl
      split
      · exact ih rest o (by omega) (by omega)
      cases rest with
      | nil => rfl
      | cons len body =>
        dsimp only
        cases parseOne kind len body o with
        | error e => rfl
        | ok o' =>
          rw [List.length_cons] at h h'
          have hdrop := List.length_drop (i := len.toNat - 2) (l := body)
          exact ih _ o' (by omega) (by omega)

/-- The parser over the bytes left, from the options `o` found so far. -/
def parseFrom (bytes : List U8) (o : TcpOptions) : Except TcpError TcpOptions :=
  parseLoop (bytes.length + 1) bytes o

/-- One option of length `len` is taken off the front. -/
lemma parseFrom_option (kind len : U8) (body : List U8) {rest : List U8} {o o' : TcpOptions}
    (h0 : kind ≠ 0) (h1 : kind ≠ 1) (hlen : body.length + 2 = len.toNat)
    (hone : parseOne kind len (body ++ rest) o = .ok o') :
    parseFrom (kind :: len :: (body ++ rest)) o = parseFrom rest o' := by
  have hdrop : (body ++ rest).drop (len.toNat - 2) = rest := by
    rw [show len.toNat - 2 = body.length by omega, List.drop_left]
  unfold parseFrom
  rw [List.length_cons]
  simp only [parseLoop, if_neg h0, if_neg h1, hone, hdrop]
  exact parseLoop_fuel rest o' (by simp; omega) (by omega)

/-- Blocks are read back in order, behind those already there. -/
lemma parseBlocks_blockBytes (l : List (U32 × U32)) (rest : List U8) (sb : SackBlocks)
    (h : sb.blocks.length + l.length ≤ 4) :
    parseBlocks l.length (blockBytes l ++ rest) sb =
      .ok ⟨sb.blocks ++ l, by rw [List.length_append]; exact h⟩ := by
  induction l generalizing sb with
  | nil => simp [parseBlocks]
  | cons b l ih =>
    rw [List.length_cons] at h
    have hpush : (sb.push b.1 b.2).blocks = sb.blocks ++ [b] := by
      unfold SackBlocks.push
      rw [dif_pos (by omega)]
    simp only [blockBytes, List.flatMap_cons, bytes4, List.cons_append, List.nil_append,
      List.length_cons, parseBlocks, word4_bytes4]
    refine (ih (sb.push b.1 b.2) (by simp [hpush]; omega)).trans ?_
    simp only [hpush, List.append_assoc, List.singleton_append]

lemma parseOne_sack {sb : SackBlocks} {len : U8} (hlen : len.toNat = 2 + 8 * sb.blocks.length)
    (hne : sb.blocks ≠ []) (rest : List U8) (o : TcpOptions) :
    parseOne 5 len (blockBytes sb.blocks ++ rest) o = .ok { o with sack := sb } := by
  have hle := sb.len_le
  have hpos := List.length_pos_of_ne_nil hne
  have hcount : (2 + 8 * sb.blocks.length - 2) / 8 = sb.blocks.length := by omega
  have hblocks := parseBlocks_blockBytes sb.blocks rest SackBlocks.EMPTY
    (by simpa [SackBlocks.EMPTY])
  unfold parseOne
  rw [if_neg (by decide), if_neg (by decide), if_neg (by decide), if_pos rfl, hlen, if_neg, hcount,
    hblocks]
  · rfl
  · rw [List.length_append, length_blockBytes]
    omega

/-- An option in front is taken off and applied. -/
lemma parseFrom_item (x : OptionItem) (rest : List U8) (o : TcpOptions) :
    parseFrom (x.bytes ++ rest) o = parseFrom rest (x.apply o) := by
  cases x with
  | nop => rfl
  | mss v =>
    refine parseFrom_option 2 4 (bytes2 v) (by decide) (by decide) rfl ?_
    simp only [parseOne, bytes2, List.cons_append, word2_bytes2]
    rfl
  | wscale shift => exact parseFrom_option 3 3 [shift] (by decide) (by decide) rfl rfl
  | sackPermitted => exact parseFrom_option 4 2 [] (by decide) (by decide) rfl rfl
  | ts tsval tsecr =>
    refine parseFrom_option 8 10 (bytes4 tsval ++ bytes4 tsecr) (by decide) (by decide) rfl ?_
    simp only [parseOne, bytes4, List.cons_append, List.nil_append, word4_bytes4]
    rfl
  | sack sb hne =>
    have hle := sb.len_le
    have hlen : (BitVec.ofNat 8 (2 + 8 * sb.len)).toNat = 2 + 8 * sb.blocks.length := by
      rw [BitVec.toNat_ofNat, SackBlocks.len]
      omega
    refine parseFrom_option 5 _ (blockBytes sb.blocks) (by decide) (by decide) ?_
      (parseOne_sack hlen hne rest o)
    rw [length_blockBytes, hlen]
    omega
  | unknown kind body hother hshort =>
    have hlen : (BitVec.ofNat 8 (body.length + 2)).toNat = body.length + 2 := by
      rw [BitVec.toNat_ofNat, Nat.mod_eq_of_lt hshort]
    simp only [List.mem_cons, List.not_mem_nil, or_false, not_or] at hother
    obtain ⟨h0, h1, h2, h3, h4, h5, h8⟩ := hother
    refine parseFrom_option kind _ body h0 h1 hlen.symm ?_
    unfold parseOne
    rw [if_neg h2, if_neg h3, if_neg h4, if_neg h5, if_neg h8, if_neg]
    · rfl
    · rw [hlen, List.length_append]
      omega

/-! ## What a round accepts -/

/-- Blocks that were read are the blocks that stand there. -/
lemma parseBlocks_inv {n : ℕ} {bytes : List U8} {sb sb' : SackBlocks} (hn : sb.len + n ≤ 4)
    (h : parseBlocks n bytes sb = .ok sb') :
    ∃ l, l.length = n ∧ sb'.blocks = sb.blocks ++ l ∧ bytes = blockBytes l ++ bytes.drop (8 * n) := by
  induction n, bytes, sb using parseBlocks.induct with
  | case1 bytes sb =>
    cases h
    exact ⟨[], rfl, (List.append_nil _).symm, rfl⟩
  | case2 n a b c d e f g i rest sb ih =>
    have hroom : sb.blocks.length < 4 := by
      unfold SackBlocks.len at hn
      omega
    have hpush := SackBlocks.len_push sb (word4 a b c d) (word4 e f g i)
    obtain ⟨l, hl, hblocks, hrest⟩ := ih (by omega) h
    refine ⟨(word4 a b c d, word4 e f g i) :: l, by rw [List.length_cons, hl], ?_, ?_⟩
    · rw [hblocks, SackBlocks.push, dif_pos hroom, List.append_assoc, List.singleton_append]
    · rw [show 8 * (n + 1) = 8 * n + 8 by omega]
      simp only [List.drop_succ_cons]
      rw [blockBytes, List.flatMap_cons, bytes4_word4, bytes4_word4, ← blockBytes, List.append_assoc,
        ← hrest]
      rfl
  | case3 n bytes sb hshort =>
    rw [parseBlocks.eq_3 _ _ _ hshort] at h
    cases h

/-- Whatever a round accepts is an option in front of the bytes it leaves. -/
lemma parseOne_item {kind len : U8} {body : List U8} {o o' : TcpOptions} (h0 : kind ≠ 0)
    (h1 : kind ≠ 1) (h : parseOne kind len body o = .ok o') :
    ∃ x : OptionItem, kind :: len :: body = x.bytes ++ body.drop (len.toNat - 2) ∧ o' = x.apply o := by
  unfold parseOne at h
  split at h
  case isTrue h2 =>
    split at h
    · split at h
      · cases h
      case isFalse hlen =>
      cases h
      exact ⟨.mss _, by simp [OptionItem.bytes, bytes2_word2, h2, not_not.mp hlen], rfl⟩
    · cases h
  case isFalse h2 =>
  split at h
  case isTrue h3 =>
    split at h
    · split at h
      · cases h
      case isFalse hlen =>
      cases h
      exact ⟨.wscale _, by simp [OptionItem.bytes, h3, not_not.mp hlen], rfl⟩
    · cases h
  case isFalse h3 =>
  split at h
  case isTrue h4 =>
    split at h
    · cases h
    case isFalse hlen =>
    cases h
    exact ⟨.sackPermitted, by simp [OptionItem.bytes, h4, not_not.mp hlen], rfl⟩
  case isFalse h4 =>
  split at h
  case isTrue h5 =>
    split at h
    · cases h
    case isFalse hlen =>
    split at h
    case h_2 => cases h
    case h_1 sb hsb =>
    cases h
    obtain ⟨l, hl, hblocks, hbody⟩ := parseBlocks_inv (by rw [SackBlocks.len_EMPTY]; omega) hsb
    rw [show SackBlocks.EMPTY.blocks = [] from rfl, List.nil_append] at hblocks
    have hcount : sb.blocks.length = (len.toNat - 2) / 8 := by rw [hblocks, hl]
    have hlen' : len.toNat = 2 + 8 * sb.len := by
      unfold SackBlocks.len
      omega
    refine ⟨.sack sb (fun hnil => ?_), ?_, rfl⟩
    · rw [hnil, List.length_nil] at hcount
      omega
    · have hval : BitVec.ofNat 8 (2 + 8 * sb.len) = len := by rw [← hlen', BitVec.ofNat_toNat]; rfl
      rw [OptionItem.bytes, hval, hblocks, h5, show len.toNat - 2 = 8 * ((len.toNat - 2) / 8) by omega]
      exact congrArg (fun t => 5 :: len :: t) hbody
  case isFalse h5 =>
  split at h
  case isTrue h8 =>
    split at h
    · split at h
      · cases h
      case isFalse hlen =>
      cases h
      exact ⟨.ts _ _, by simp [OptionItem.bytes, bytes4_word4, h8, not_not.mp hlen], rfl⟩
    · cases h
  case isFalse h8 =>
  split at h
  · cases h
  case isFalse hlen =>
  cases h
  have hlt := len.isLt
  have htake : (body.take (len.toNat - 2)).length + 2 = len.toNat := by
    rw [List.length_take]
    omega
  have hother : kind ∉ [0, 1, 2, 3, 4, 5, 8] := by
    simp only [List.mem_cons, List.not_mem_nil, or_false, not_or]
    exact ⟨h0, h1, h2, h3, h4, h5, h8⟩
  refine ⟨.unknown kind (body.take (len.toNat - 2)) hother (by omega), ?_, rfl⟩
  have hval : BitVec.ofNat 8 ((body.take (len.toNat - 2)).length + 2) = len := by
    rw [htake, BitVec.ofNat_toNat]
    rfl
  rw [OptionItem.bytes, hval, List.append_assoc, List.take_append_drop]
  rfl

/-! ## Whole areas -/

/-- What may stand behind the options: nothing, or an EOL byte and anything. -/
def AreaEnd (tail : List U8) : Prop := tail = [] ∨ ∃ junk, tail = 0 :: junk

lemma parseFrom_end {tail : List U8} (h : AreaEnd tail) (o : TcpOptions) :
    parseFrom tail o = .ok o := by
  obtain rfl | ⟨junk, rfl⟩ := h <;> rfl

lemma parseFrom_items (items : List OptionItem) (tail : List U8) (o : TcpOptions) :
    parseFrom (items.flatMap OptionItem.bytes ++ tail) o =
      parseFrom tail (items.foldl OptionItem.apply o) := by
  induction items generalizing o with
  | nil => rfl
  | cons x items ih => rw [List.flatMap_cons, List.append_assoc, parseFrom_item, ih, List.foldl_cons]

lemma parseLoop_items {fuel : ℕ} {bytes : List U8} {o o' : TcpOptions} (hfuel : bytes.length < fuel)
    (h : parseLoop fuel bytes o = .ok o') :
    ∃ (items : List OptionItem) (tail : List U8), bytes = items.flatMap OptionItem.bytes ++ tail ∧
      AreaEnd tail ∧ o' = items.foldl OptionItem.apply o := by
  induction fuel generalizing bytes o with
  | zero => omega
  | succ fuel ih =>
    cases bytes with
    | nil =>
      cases h
      exact ⟨[], [], rfl, .inl rfl, rfl⟩
    | cons kind rest =>
      rw [List.length_cons] at hfuel
      simp only [parseLoop] at h
      split at h
      case isTrue h0 =>
        cases h
        exact ⟨[], kind :: rest, rfl, .inr ⟨rest, by rw [h0]⟩, rfl⟩
      case isFalse h0 =>
      split at h
      case isTrue h1 =>
        obtain ⟨items, tail, hbytes, hend, ho⟩ := ih (by omega) h
        exact ⟨.nop :: items, tail, by rw [h1, hbytes]; rfl, hend, ho⟩
      case isFalse h1 =>
      cases rest with
      | nil => cases h
      | cons len body =>
        dsimp only at h
        split at h
        · cases h
        case h_2 o₁ hone =>
        rw [List.length_cons] at hfuel
        obtain ⟨x, hx, rfl⟩ := parseOne_item h0 h1 hone
        have hdrop := List.length_drop (i := len.toNat - 2) (l := body)
        obtain ⟨items, tail, hbytes, hend, ho⟩ := ih (by omega) h
        exact ⟨x :: items, tail, by rw [List.flatMap_cons, List.append_assoc, ← hbytes, hx], hend, ho⟩

/-! ## What is kept -/

/-- The last of the values that `f` finds among the options. -/
def lastOf {α : Type} (f : OptionItem → Option α) (items : List OptionItem) : Option α :=
  (items.filterMap f).getLast?

/-- The last option of each kind; the shift count is clamped to 14. -/
def kept (items : List OptionItem) : TcpOptions where
  mss := lastOf (fun | .mss v => some v | _ => none) items
  wscale := (lastOf (fun | .wscale shift => some shift | _ => none) items).map
    (FixedWidth.minB · 14)
  ts := lastOf (fun | .ts tsval tsecr => some (tsval, tsecr) | _ => none) items
  sackPermitted := (lastOf (fun | .sackPermitted => some () | _ => none) items).isSome
  sack := (lastOf (fun | .sack sb _ => some sb | _ => none) items).getD SackBlocks.EMPTY

lemma lastOf_concat {α : Type} (f : OptionItem → Option α) (items : List OptionItem)
    (x : OptionItem) : lastOf f (items ++ [x]) = (f x).or (lastOf f items) := by
  cases h : f x <;> simp [lastOf, h]

lemma foldl_apply_eq_kept (items : List OptionItem) :
    items.foldl OptionItem.apply NONE = kept items := by
  induction items using List.reverseRecOn with
  | nil => rfl
  | append_singleton items x ih =>
    rw [List.foldl_append, ih]
    cases x <;> simp [kept, lastOf_concat, OptionItem.apply]

/-- The parser accepts exactly the areas made of whole options up to their end or an EOL byte, and
keeps the last option of each kind before that end; its loop ends within one round for every byte. -/
theorem parse_grammar (bytes : List U8) :
    (∀ fuel, bytes.length < fuel → parseLoop fuel bytes NONE = parse bytes) ∧
    ∀ o, parse bytes = .ok o ↔ ∃ (items : List OptionItem) (tail : List U8),
      bytes = items.flatMap OptionItem.bytes ++ tail ∧ AreaEnd tail ∧ o = kept items := by
  refine ⟨fun fuel hfuel => parseLoop_fuel bytes NONE hfuel (Nat.lt_succ_self _), fun o => ⟨?_, ?_⟩⟩
  · intro h
    obtain ⟨items, tail, hbytes, hend, ho⟩ := parseLoop_items (Nat.lt_succ_self _) h
    exact ⟨items, tail, hbytes, hend, ho.trans (foldl_apply_eq_kept items)⟩
  · rintro ⟨items, tail, rfl, hend, rfl⟩
    exact (parseFrom_items items tail NONE).trans
      ((parseFrom_end hend _).trans (congrArg _ (foldl_apply_eq_kept items)))

end TcpOptions

end TcpSansIo
