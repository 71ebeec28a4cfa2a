import Mathlib.Data.List.Induction
import Mathlib.Data.Nat.Bitwise
import ColonyCache.Identity.Hashing
/-! Closed forms of the identity hash for every type the library hashes: a whole-word write
replaces the state, and a run of bytes turns it eight bits a byte, wrapping after eight bytes. -/
namespace ColonyCache

/-! ## Turning a word -/

/-- The word turned left by `k` bits, the bits leaving at the top coming back at the bottom. -/
def rotl (x : UInt64) (k : Nat) : UInt64 := UInt64.ofBitVec (x.toBitVec.rotateLeft k)

theorem word_eq_of_getLsbD {a b : UInt64}
    (h : ∀ z < 64, a.toBitVec.getLsbD z = b.toBitVec.getLsbD z) : a = b :=
  UInt64.toBitVec_inj.mp (BitVec.eq_of_getLsbD_eq h)

/-- Bit `z` of a turned word is the bit `k` places below it, counted round the word. -/
theorem getLsbD_rotl (x : UInt64) (k z : Nat) (hz : z < 64) :
    (rotl x k).toBitVec.getLsbD z = x.toBitVec.getLsbD ((z + 64 - k % 64) % 64) := by
  simp only [rotl, UInt64.toBitVec_ofBitVec, BitVec.getLsbD_rotateLeft]
  by_cases hlt : z < k % 64
  · simp only [hlt, decide_true, cond_true]
    congr 1
    omega
  · simp only [hlt, hz, decide_false, decide_true, cond_false, Bool.true_and]
    congr 1
    omega

theorem rotl_congr {a : UInt64} {j k : Nat} (h : j % 64 = k % 64) : rotl a j = rotl a k :=
  word_eq_of_getLsbD fun z hz => by rw [getLsbD_rotl _ _ _ hz, getLsbD_rotl _ _ _ hz, h]

@[simp] theorem rotl_zero (a : UInt64) : rotl a 0 = a :=
  word_eq_of_getLsbD fun z hz => by
    rw [getLsbD_rotl _ _ _ hz]
    congr 1
    omega

@[simp] theorem zero_rotl (k : Nat) : rotl 0 k = 0 :=
  word_eq_of_getLsbD fun z hz => by simp [getLsbD_rotl _ _ _ hz]

theorem rotl_xor (a b : UInt64) (k : Nat) : rotl (a ^^^ b) k = rotl a k ^^^ rotl b k :=
  word_eq_of_getLsbD fun z hz => by
    simp only [UInt64.toBitVec_xor, BitVec.getLsbD_xor, getLsbD_rotl _ _ _ hz]

theorem rotl_rotl (a : UInt64) (j k : Nat) : rotl (rotl a j) k = rotl a (j + k) :=
  word_eq_of_getLsbD fun z hz => by
    rw [getLsbD_rotl _ _ _ hz, getLsbD_rotl _ _ _ (Nat.mod_lt _ (by omega)),
      getLsbD_rotl _ _ _ hz]
    congr 1
    omega

/-! ## The XOR of a list of words -/

/-- All the words of a list taken together by XOR. -/
def xorAll (ws : List UInt64) : UInt64 := ws.foldr (· ^^^ ·) 0

@[simp] theorem xorAll_nil : xorAll [] = 0 := rfl

@[simp] theorem xorAll_cons (w : UInt64) (ws : List UInt64) :
    xorAll (w :: ws) = w ^^^ xorAll ws := rfl

theorem xorAll_append (l₁ l₂ : List UInt64) :
    xorAll (l₁ ++ l₂) = xorAll l₁ ^^^ xorAll l₂ := by
  induction l₁ with
  | nil => simp
  | cons w ws ih => simp [ih, UInt64.xor_assoc]

theorem rotl_xorAll (ws : List UInt64) (k : Nat) :
    rotl (xorAll ws) k = xorAll (ws.map (rotl · k)) := by
  induction ws with
  | nil => simp
  | cons w ws ih => simp [rotl_xor, ih]

/-! ## Folding a run of bytes -/

/-- What folding `bs` into a clear state leaves: each byte turned eight bits per later byte. -/
def byteSpread (bs : List UInt8) : UInt64 :=
  xorAll (bs.zipIdx.map fun p => rotl p.1.toUInt64 (8 * (bs.length - 1 - p.2) % 64))

theorem foldByte_eq (h : UInt64) (b : UInt8) :
    HashWrite.foldByte h b = rotl h 8 ^^^ b.toUInt64 := rfl

theorem byteSpread_append_singleton (bs : List UInt8) (b : UInt8) :
    byteSpread (bs ++ [b]) = rotl (byteSpread bs) 8 ^^^ b.toUInt64 := by
  simp only [byteSpread, List.zipIdx_append, List.map_append, xorAll_append, rotl_xorAll,
    List.map_map]
  congr 1
  · -- a byte already in the run has one more byte after it
    congr 1
    apply List.map_congr_left
    rintro ⟨c, i⟩ hc
    have hi : i < bs.length := by simpa using (List.mem_zipIdx hc).2.1
    simp only [Function.comp, rotl_rotl, List.length_append, List.length_singleton]
    exact rotl_congr (by omega)
  · simp

/-- The byte fold from any state: the state turned eight bits per byte, then the spread bytes. -/
theorem foldl_foldByte (h : UInt64) (bs : List UInt8) :
    bs.foldl HashWrite.foldByte h = rotl h (8 * bs.length) ^^^ byteSpread bs := by
  induction bs using List.reverseRecOn with
  | nil => simp [byteSpread]
  | append_singleton bs b ih =>
    rw [List.foldl_append, List.foldl_cons, List.foldl_nil, ih, foldByte_eq, rotl_xor, rotl_rotl,
      byteSpread_append_singleton, List.length_append, List.length_singleton, Nat.mul_succ,
      UInt64.xor_assoc]

theorem hashWrites_bytes (bs : List UInt8) :
    hashWrites [.bytes bs] = bs.foldl HashWrite.foldByte 0 := rfl

theorem foldl_foldByte_zero_eq_byteSpread (bs : List UInt8) :
    bs.foldl HashWrite.foldByte 0 = byteSpread bs := by
  rw [foldl_foldByte, zero_rotl, UInt64.zero_xor]

/-! ## Reading bytes as a word -/

/-- The word shifted left by one byte, with `b` as its new low byte. -/
def shiftIn (acc : UInt64) (b : UInt8) : UInt64 := (acc <<< 8) ||| b.toUInt64

/-- The word whose bytes, most significant first, are `bs`. -/
def ofBeBytes (bs : List UInt8) : UInt64 := bs.foldl shiftIn 0

/-- The eight bytes of a word, least significant first. -/
def leBytes (x : UInt64) : List UInt8 := (List.range 8).map fun i => (x.toNat >>> (8 * i)).toUInt8

/-- The word with the order of its eight bytes reversed. -/
def swapBytes (x : UInt64) : UInt64 := ofBeBytes (leBytes x)

theorem toNat_shiftIn {h : UInt64} (hh : h.toNat < 2 ^ 56) (b : UInt8) :
    (shiftIn h b).toNat = h.toNat * 2 ^ 8 + b.toNat := by
  have hb : b.toNat < 2 ^ 8 := b.toNat_lt
  have hs : h.toNat <<< 8 < 2 ^ 64 := by
    rw [Nat.shiftLeft_eq]
    omega
  simp only [shiftIn, UInt64.toNat_or, UInt64.toNat_shiftLeft, UInt8.toNat_toUInt64]
  rw [show (8 : UInt64).toNat % 64 = 8 from rfl, Nat.mod_eq_of_lt hs,
    ← Nat.shiftLeft_add_eq_or_of_lt hb, Nat.shiftLeft_eq]

theorem ofBeBytes_append_singleton (bs : List UInt8) (b : UInt8) :
    ofBeBytes (bs ++ [b]) = shiftIn (ofBeBytes bs) b := by
  rw [ofBeBytes, List.foldl_append, List.foldl_cons, List.foldl_nil, ← ofBeBytes]

theorem toNat_ofBeBytes_lt {bs : List UInt8} (hl : bs.length ≤ 8) :
    (ofBeBytes bs).toNat < 2 ^ (8 * bs.length) := by
  induction bs using List.reverseRecOn with
  | nil => simp [ofBeBytes]
  | append_singleton bs b ih =>
    simp only [List.length_append, List.length_singleton] at hl ⊢
    have hlt := ih (by omega)
    have h56 : (ofBeBytes bs).toNat < 2 ^ 56 :=
      Nat.lt_of_lt_of_le hlt (Nat.pow_le_pow_right (by omega) (by omega))
    have hb := b.toNat_lt
    rw [ofBeBytes_append_singleton, toNat_shiftIn h56, Nat.mul_succ, Nat.pow_add]
    omega

/-- Byte `k` from the low end of at most eight bytes read as a word is the `k`-th from the end. -/
theorem byte_ofBeBytes {bs : List UInt8} (hl : bs.length ≤ 8) {k : Nat} (hk : k < bs.length) :
    ((ofBeBytes bs).toNat >>> (8 * k)).toUInt8 = bs[bs.length - 1 - k] := by
  induction bs using List.reverseRecOn generalizing k with
  | nil => simp at hk
  | append_singleton bs b ih =>
    simp only [List.length_append, List.length_singleton] at hl hk
    have h56 : (ofBeBytes bs).toNat < 2 ^ 56 :=
      Nat.lt_of_lt_of_le (toNat_ofBeBytes_lt (by omega))
        (Nat.pow_le_pow_right (by omega) (by omega))
    have hb := b.toNat_lt
    rw [ofBeBytes_append_singleton, toNat_shiftIn h56]
    cases k with
    | zero =>
      -- the byte read last is the low byte
      apply UInt8.toNat_inj.mp
      simp
    | succ k =>
      -- every earlier byte has moved up by one place
      have hshift : ((ofBeBytes bs).toNat * 2 ^ 8 + b.toNat) >>> (8 * (k + 1)) =
          (ofBeBytes bs).toNat >>> (8 * k) := by
        have hlow : ((ofBeBytes bs).toNat * 2 ^ 8 + b.toNat) / 2 ^ 8 = (ofBeBytes bs).toNat := by
          omega
        rw [Nat.shiftRight_eq_div_pow, Nat.shiftRight_eq_div_pow,
          show 8 * (k + 1) = 8 + 8 * k by omega, Nat.pow_add, ← Nat.div_div_eq_div_mul, hlow]
      rw [hshift, ih (by omega) (by omega), List.getElem_append_left (by simp; omega)]
      congr 1
      simp only [List.length_append, List.length_singleton]
      omega

theorem leBytes_swapBytes (x : UInt64) : leBytes (swapBytes x) = (leBytes x).reverse := by
  have hlen : (leBytes x).length = 8 := by simp [leBytes]
  apply List.ext_getElem (by simp [leBytes])
  intro i h1 _
  simp only [leBytes, List.length_map, List.length_range] at h1
  have hbyte : (leBytes (swapBytes x))[i] = ((swapBytes x).toNat >>> (8 * i)).toUInt8 := by
    simp [leBytes]
  rw [List.getElem_reverse]
  refine hbyte.trans ?_
  rw [swapBytes, byte_ofBeBytes hlen.le (by omega)]

example : swapBytes 0x1234567890123456 = 0x5634129078563412 := by decide

/-! ## Up to eight bytes no bit comes round, so the fold only shifts them in -/

theorem foldByte_eq_shiftIn {h : UInt64} (hh : h.toNat < 2 ^ 56) (b : UInt8) :
    HashWrite.foldByte h b = shiftIn h b :=
  word_eq_of_getLsbD fun z hz => by
    -- the bits turned round to the bottom are clear, and the byte has no bit from eight on
    have htop : h.toBitVec.getLsbD (56 + z) = false := by
      rw [← BitVec.testBit_toNat]
      exact Nat.testBit_lt_two_pow
        (Nat.lt_of_lt_of_le hh (Nat.pow_le_pow_right (by omega) (by omega)))
    by_cases hz8 : z < 8
    · simp [HashWrite.foldByte, shiftIn, htop, hz8, hz]
    · simp [HashWrite.foldByte, shiftIn, htop, hz8, hz,
        BitVec.getLsbD_of_ge b.toBitVec z (by omega)]

theorem foldl_foldByte_eq_shiftIn {bs : List UInt8} (hl : bs.length ≤ 8) {h : UInt64}
    (hh : h.toNat < 2 ^ (64 - 8 * bs.length)) :
    bs.foldl HashWrite.foldByte h = bs.foldl shiftIn h := by
  induction bs generalizing h with
  | nil => rfl
  | cons b bs ih =>
    simp only [List.length_cons] at hl hh
    have h56 : h.toNat < 2 ^ 56 :=
      Nat.lt_of_lt_of_le hh (Nat.pow_le_pow_right (by omega) (by omega))
    rw [List.foldl_cons, List.foldl_cons, foldByte_eq_shiftIn h56]
    apply ih (by omega)
    -- one byte more in the state leaves room for one byte fewer
    have hroom : 2 ^ (64 - 8 * bs.length) = 2 ^ (64 - 8 * (bs.length + 1)) * 2 ^ 8 := by
      rw [← Nat.pow_add]
      congr 1
      omega
    have hb := b.toNat_lt
    rw [toNat_shiftIn h56, hroom]
    omega

theorem foldl_foldByte_zero {bs : List UInt8} (hl : bs.length ≤ 8) :
    bs.foldl HashWrite.foldByte 0 = ofBeBytes bs :=
  foldl_foldByte_eq_shiftIn hl (Nat.pos_of_ne_zero (by simp))

/-! ## 128-bit numbers -/

theorem byte_of_window {n s j : Nat} {x : UInt64} (hx : x.toNat = n / 2 ^ s % 2 ^ 64)
    (hj : j < 8) : (x.toNat >>> (8 * j)).toUInt8 = (n / Nat.pow 2 (s + 8 * j)).toUInt8 := by
  apply UInt8.toNat_inj.mp
  simp only [Nat.toUInt8_eq, UInt8.toNat_ofNat', hx, Nat.pow_eq]
  apply Nat.eq_of_testBit_eq
  intro i
  simp only [Nat.testBit_mod_two_pow, Nat.testBit_shiftRight, Nat.testBit_div_two_pow]
  -- a bit of the byte lies inside the window
  by_cases hi : i < 8
  · rw [decide_eq_true hi, decide_eq_true (by omega), Bool.true_and, Bool.true_and, Bool.true_and]
    congr 1
    omega
  · simp [hi]

theorem littleEndian16_eq (n : Nat) :
    littleEndian16 n = leBytes n.toUInt64 ++ leBytes (n >>> 64).toUInt64 := by
  apply List.ext_getElem
  · simp [littleEndian16, leBytes]
  · intro i h1 _
    simp only [littleEndian16, List.length_map, List.length_range, List.getElem_map,
      List.getElem_range] at h1 ⊢
    by_cases hi : i < 8
    · rw [List.getElem_append_left (by simp [leBytes]; omega)]
      simp only [leBytes, List.getElem_map, List.getElem_range]
      rw [byte_of_window (n := n) (s := 0) (by simp) hi, Nat.zero_add]
    · rw [List.getElem_append_right (by simp [leBytes]; omega)]
      simp only [leBytes, List.getElem_map, List.getElem_range, List.length_map,
        List.length_range]
      rw [byte_of_window (n := n) (s := 64) (by simp [Nat.shiftRight_eq_div_pow]) (by omega),
        show 64 + 8 * (i - 8) = 8 * i by omega]

/-- A 128-bit number hashes to the XOR of its two words, each with its bytes reversed. -/
theorem identityHash_bitVec128 (x : BitVec 128) :
    identityHash x =
      swapBytes (UInt64.ofBitVec (x.setWidth 64)) ^^^
        swapBytes (UInt64.ofBitVec ((x >>> 64).setWidth 64)) := by
  have hlo : UInt64.ofBitVec (x.setWidth 64) = x.toNat.toUInt64 := by
    apply UInt64.toNat_inj.mp
    simp
  have hhi : UInt64.ofBitVec ((x >>> 64).setWidth 64) = (x.toNat >>> 64).toUInt64 := by
    apply UInt64.toNat_inj.mp
    simp
  have hlen (y : UInt64) : (leBytes y).length = 8 := by simp [leBytes]
  rw [hlo, hhi]
  show hashWrites [.bytes (littleEndian16 x.toNat)] = _
  rw [hashWrites_bytes, littleEndian16_eq, List.foldl_append, foldl_foldByte, hlen,
    rotl_congr (show 8 * 8 % 64 = 0 % 64 from rfl), rotl_zero, foldl_foldByte_zero (hlen _).le,
    ← foldl_foldByte_zero_eq_byteSpread, foldl_foldByte_zero (hlen _).le, swapBytes, swapBytes]

/-! ## Whole-word writes -/

theorem hashWrites_append_word (ws rest : List HashWrite) (w : UInt64) :
    hashWrites (ws ++ .word w :: rest) = hashWrites (.word w :: rest) := by
  simp [hashWrites, List.foldl_append, HashWrite.apply]

theorem identityHash_of_writes_eq {α : Type} [IdentityHash α] {x : α} {w : UInt64}
    (h : IdentityHash.writes x = [.word w]) : identityHash x = w := by
  simp [identityHash, h, hashWrites, HashWrite.apply]

theorem identityHash_prod_of_writes_eq {α β : Type} [IdentityHash α] [IdentityHash β] (a : α)
    {b : β} {w : UInt64} {rest : List HashWrite} (h : IdentityHash.writes b = .word w :: rest) :
    identityHash (a, b) = identityHash b := by
  show hashWrites (IdentityHash.writes a ++ IdentityHash.writes b) = hashWrites _
  rw [h, hashWrites_append_word]

theorem identityHash_some_of_writes_eq {α : Type} [IdentityHash α] {a : α} {w : UInt64}
    {rest : List HashWrite} (h : IdentityHash.writes a = .word w :: rest) :
    identityHash (some a) = identityHash a := by
  show hashWrites ([.word 1] ++ IdentityHash.writes a) = hashWrites _
  rw [h, hashWrites_append_word]

/-- Text hashes to its end mark, whatever its bytes. -/
theorem identityHash_string (s : String) : identityHash s = 255 := by
  show hashWrites ([_] ++ [.word 255]) = 255
  rw [hashWrites_append_word]
  rfl

theorem identityHash_bytes (bs : List UInt8) :
    identityHash bs = rotl bs.length.toUInt64 (8 * bs.length % 64) ^^^ byteSpread bs := by
  show bs.foldl HashWrite.foldByte bs.length.toUInt64 = _
  rw [foldl_foldByte, rotl_congr (Nat.mod_mod _ _).symm]

/-! ## Every hashed type -/

/-- The identity hash of a value of each hashed type. -/
theorem identity_hash_closed_forms :
    (∀ n : UInt8, (identityHash n).toBitVec = n.toBitVec.setWidth 64) ∧
    (∀ n : UInt16, (identityHash n).toBitVec = n.toBitVec.setWidth 64) ∧
    (∀ n : UInt32, (identityHash n).toBitVec = n.toBitVec.setWidth 64) ∧
    (∀ n : UInt64, identityHash n = n) ∧
    (∀ n : Int8, (identityHash n).toBitVec = n.toBitVec.setWidth 64) ∧
    (∀ n : Int16, (identityHash n).toBitVec = n.toBitVec.setWidth 64) ∧
    (∀ n : Int32, (identityHash n).toBitVec = n.toBitVec.setWidth 64) ∧
    (∀ n : Int64, (identityHash n).toBitVec = n.toBitVec) ∧
    (∀ b : Bool, (identityHash b).toBitVec = (BitVec.ofBool b).setWidth 64) ∧
    (∀ c : Char, (identityHash c).toBitVec = c.val.toBitVec.setWidth 64) ∧
    (∀ e : EntityId, (identityHash e).toBitVec = e.val.toBitVec.setWidth 64) ∧
    (∀ m : MapId, (identityHash m).toBitVec = m.val.toBitVec.setWidth 64) ∧
    (∀ r : RegionId, (identityHash r).toBitVec = r.val.toBitVec.setWidth 64) ∧
    (∀ p : UInt32 × UInt32, identityHash p = identityHash p.2) ∧
    (∀ k : RelationKey, identityHash k = identityHash k.related) ∧
    identityHash (none : Option UInt32) = 0 ∧
    (∀ n : UInt32, identityHash (some n) = identityHash n) ∧
    (∀ bs : List UInt8,
      identityHash bs = rotl bs.length.toUInt64 (8 * bs.length % 64) ^^^ byteSpread bs) ∧
    (∀ x : BitVec 128, identityHash x =
      swapBytes (UInt64.ofBitVec (x.setWidth 64)) ^^^
        swapBytes (UInt64.ofBitVec ((x >>> 64).setWidth 64))) ∧
    (∀ s : String, identityHash s = 255) := by
  refine ⟨fun n => ?u8, fun n => ?u16, fun n => ?u32, fun n => identityHash_of_writes_eq rfl,
    fun n => ?i8, fun n => ?i16, fun n => ?i32, fun n => ?i64, fun b => ?bool, fun c => ?char,
    fun e => ?entity, fun m => ?map, fun r => ?region,
    fun p => identityHash_prod_of_writes_eq _ rfl, fun k => identityHash_prod_of_writes_eq _ rfl,
    rfl, fun n => identityHash_some_of_writes_eq rfl,
    identityHash_bytes, identityHash_bitVec128, identityHash_string⟩
  case bool => cases b <;> rfl
  -- the rest are written as one whole word: their bits, widened
  all_goals rw [identityHash_of_writes_eq rfl]; simp

end ColonyCache
