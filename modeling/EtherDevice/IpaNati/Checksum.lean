import EtherDevice.IpaNati.Table
import EtherDevice.Lib.OnesComplement

/-!
# Checksum differences

The two checksum functions of the driver add 16-bit words in 32 bits, the words of the
private side complemented, and fold the carry back after each addition. Each addition is
one of ones-complement arithmetic, so the result is the public words less the private ones
modulo `0xFFFF`, and no carry is left over when the result is cut to 16 bits.
-/

namespace EtherDevice.IpaNati

/-- The two words of an address, the low one first. -/
def ipWords (ip : UInt32) : List UInt16 := [ip.toUInt16, (ip >>> 16).toUInt16]

def cksumOf (words : List UInt16) : UInt32 :=
  words.foldl (fun cksum w => addCarry cksum w.toUInt32) 0

def wordNats (words : List UInt16) : List Nat := words.map (·.toNat)

def differenceWords (pub priv : List UInt16) : List UInt16 := pub ++ priv.map (~~~·)

theorem addCarry_toNat {cksum x : UInt32} (hcksum : cksum.toNat ≤ 0xFFFF)
    (hx : x.toNat ≤ 0xFFFF) :
    (addCarry cksum x).toNat = OnesComplement.add 0xFFFF cksum.toNat x.toNat := by
  have hadd : (cksum + x).toNat = cksum.toNat + x.toNat := by
    rw [UInt32.toNat_add]
    exact Nat.mod_eq_of_lt (by omega)
  have hshift : ((cksum + x) >>> 16).toNat = (cksum.toNat + x.toNat) / 2 ^ 16 := by
    simp [Nat.shiftRight_eq_div_pow, hadd]
  have hcarry : (cksum + x) >>> 16 ≠ 0 ↔ 0xFFFF < cksum.toNat + x.toNat := by
    rw [Ne, ← UInt32.toNat_inj, hshift, UInt32.toNat_zero]
    omega
  have hlow : ((cksum + x) &&& 0xFFFF).toNat = (cksum.toNat + x.toNat) % 2 ^ 16 := by
    rw [UInt32.toNat_and, hadd]
    exact Nat.and_two_pow_sub_one_eq_mod _ 16
  unfold addCarry OnesComplement.add
  by_cases h : cksum.toNat + x.toNat ≤ 0xFFFF
  · rw [if_neg (hcarry.not.mpr (by omega)), if_pos h, hadd]
  · rw [if_pos (hcarry.mpr (by omega)), if_neg h, UInt32.toNat_add, hlow, UInt32.toNat_one]
    omega

theorem wordNats_le (words : List UInt16) : ∀ w ∈ wordNats words, w ≤ 0xFFFF := by
  intro w hw
  obtain ⟨word, -, rfl⟩ := List.mem_map.mp hw
  have hlt := word.toNat_lt
  omega

theorem cksumOf_toNat (words : List UInt16) :
    (cksumOf words).toNat = OnesComplement.sum 0xFFFF (wordNats words) := by
  have hfold (words : List UInt16) (cksum : UInt32) (hcksum : cksum.toNat ≤ 0xFFFF) :
      (words.foldl (fun cksum w => addCarry cksum w.toUInt32) cksum).toNat =
        (wordNats words).foldl (OnesComplement.add 0xFFFF) cksum.toNat := by
    induction words generalizing cksum with
    | nil => rfl
    | cons w words ih =>
      have hw : w.toUInt32.toNat ≤ 0xFFFF := by
        rw [UInt16.toNat_toUInt32]
        have hlt := w.toNat_lt
        omega
      have hadd := addCarry_toNat hcksum hw
      rw [List.foldl_cons, ih _ (hadd ▸ OnesComplement.add_le hcksum hw), hadd,
        UInt16.toNat_toUInt32]
      rfl
  exact hfold words 0 (Nat.zero_le _)

theorem cksumOf_le (words : List UInt16) : (cksumOf words).toNat ≤ 0xFFFF := by
  rw [cksumOf_toNat]
  exact OnesComplement.sum_le (wordNats_le words)

theorem low_word (ip : UInt32) : ip &&& 0xFFFF = ip.toUInt16.toUInt32 := by
  apply UInt32.toNat_inj.mp
  exact Nat.and_two_pow_sub_one_eq_mod _ 16

theorem high_toNat (ip : UInt32) : (ip >>> 16).toNat = ip.toNat / 2 ^ 16 := by
  rw [UInt32.toNat_shiftRight, Nat.shiftRight_eq_div_pow]
  rfl

theorem high_word (ip : UInt32) : ip >>> 16 = (ip >>> 16).toUInt16.toUInt32 := by
  apply UInt32.toNat_inj.mp
  have hlt := ip.toNat_lt
  rw [UInt16.toNat_toUInt32, UInt32.toNat_toUInt16, high_toNat]
  exact (Nat.mod_eq_of_lt (by omega)).symm

theorem ipWords_complement (ip : UInt32) : ipWords (~~~ip) = (ipWords ip).map (~~~·) := by
  have hlt := ip.toNat_lt
  have hlow : (~~~ip).toUInt16 = ~~~ip.toUInt16 := by
    simp
  have hhigh : ((~~~ip) >>> 16).toUInt16 = ~~~(ip >>> 16).toUInt16 := by
    apply UInt16.toNat_inj.mp
    grind [UInt32.toNat_toUInt16, high_toNat, UInt32.toNat_not, UInt16.toNat_not]
  simp only [ipWords, List.map_cons, List.map_nil, hlow, hhigh]

theorem addCarry_zero (w : UInt16) : addCarry 0 w.toUInt32 = w.toUInt32 := by
  have hlt := w.toNat_lt
  have hw : w.toUInt32.toNat ≤ 0xFFFF := by
    rw [UInt16.toNat_toUInt32]
    omega
  apply UInt32.toNat_inj.mp
  simp_all [addCarry_toNat, OnesComplement.add]

theorem calcIpCksum_eq (pub priv : UInt32) :
    calcIpCksum pub priv =
      (cksumOf (differenceWords (ipWords pub) (ipWords priv))).toUInt16 := by
  grind [calcIpCksum, low_word, high_word, cksumOf, differenceWords, ipWords_complement, ipWords,
    addCarry_zero]

theorem calcTcpUdpCksum_eq (pub : UInt32) (pubPort : UInt16) (priv : UInt32)
    (privPort : UInt16) :
    calcTcpUdpCksum pub pubPort priv privPort =
      (cksumOf (differenceWords (ipWords pub ++ [pubPort])
        (ipWords priv ++ [privPort]))).toUInt16 := by
  unfold calcTcpUdpCksum
  dsimp only
  rw [low_word pub, high_word pub, low_word (~~~priv), high_word (~~~priv)]
  unfold cksumOf differenceWords
  grind [ipWords_complement, ipWords, addCarry_zero]

/-- `ret` is the checksum difference of a public and a private side. -/
structure IsCksumDifference (ret : UInt16) (pub priv : List UInt16) : Prop where
  whole : ret.toNat = (cksumOf (differenceWords pub priv)).toNat
  /-- No addition loses a carry: `cksum` stays below `2 ^ 16`, and is congruent to the sum
  of the words added so far. -/
  carries (k : Nat) :
    let added := (differenceWords pub priv).take k
    (cksumOf added).toNat ≤ 0xFFFF ∧ (cksumOf added).toNat ≡ (wordNats added).sum [MOD 65535]
  difference :
    (ret.toNat : ℤ) ≡ (wordNats pub).sum - (wordNats priv).sum [ZMOD 65535]
  /-- For two packets that differ in these words only, wherever the words stand, the
  difference leads from the private sum to the public one. -/
  sums (withPub withPriv rest : List UInt16) :
    withPub.Perm (pub ++ rest) → withPriv.Perm (priv ++ rest) →
      (OnesComplement.sum 65535 (wordNats withPriv) : ℤ) + ret.toNat ≡
        OnesComplement.sum 65535 (wordNats withPub) [ZMOD 65535]
  /-- And from the checksum field of the public packet to the one of the private packet. -/
  fields (withPub withPriv rest : List UInt16) :
    withPub.Perm (pub ++ rest) → withPriv.Perm (priv ++ rest) →
      (OnesComplement.not 65535 (OnesComplement.sum 65535 (wordNats withPub)) : ℤ) + ret.toNat ≡
        OnesComplement.not 65535 (OnesComplement.sum 65535 (wordNats withPriv)) [ZMOD 65535]

theorem wordNats_differenceWords (pub priv : List UInt16) :
    wordNats (differenceWords pub priv) =
      wordNats pub ++ (wordNats priv).map (OnesComplement.not 65535) := by
  unfold wordNats differenceWords
  rw [List.map_append, List.map_map, List.map_map]
  congr 1
  apply List.map_congr_left
  intro w _
  exact UInt16.toNat_not w

theorem isCksumDifference {ret : UInt16} {pub priv : List UInt16}
    (hret : ret = (cksumOf (differenceWords pub priv)).toUInt16) :
    IsCksumDifference ret pub priv := by
  have hwhole : ret.toNat = (cksumOf (differenceWords pub priv)).toNat := by
    have hle := cksumOf_le (differenceWords pub priv)
    rw [hret, UInt32.toNat_toUInt16]
    exact Nat.mod_eq_of_lt (by omega)
  have hdifference :
      (ret.toNat : ℤ) ≡ (wordNats pub).sum - (wordNats priv).sum [ZMOD (65535 : Nat)] := by
    rw [hwhole, cksumOf_toNat, wordNats_differenceWords]
    exact OnesComplement.sum_append_not 65535 (wordNats pub) (wordNats_le priv)
  have hperm {packet words rest : List UInt16} (h : packet.Perm (words ++ rest)) :
      (wordNats packet).Perm (wordNats words ++ wordNats rest) := by
    unfold wordNats
    rw [← List.map_append]
    exact h.map _
  exact {
    whole := hwhole
    carries := by
      intro k added
      refine ⟨cksumOf_le added, ?_⟩
      simp [cksumOf_toNat, OnesComplement.sum_modEq]
    difference := hdifference
    sums := by
      intro withPub withPriv rest hpub hpriv
      exact OnesComplement.sum_exchange (hperm hpriv) (hperm hpub) hdifference
    fields := by
      intro withPub withPriv rest hpub hpriv
      exact OnesComplement.not_sum_exchange (hperm hpriv) (hperm hpub) (wordNats_le withPriv)
        (wordNats_le withPub) hdifference }

/-- **Checksum differences.** Both functions return the words of the public side less the
words of the private side in ones-complement arithmetic, for all addresses and ports. -/
theorem calcCksum_isCksumDifference (pubIpAddr privIpAddr : UInt32)
    (pubPort privPort : UInt16) :
    IsCksumDifference (calcIpCksum pubIpAddr privIpAddr) (ipWords pubIpAddr)
        (ipWords privIpAddr) ∧
      IsCksumDifference (calcTcpUdpCksum pubIpAddr pubPort privIpAddr privPort)
        (ipWords pubIpAddr ++ [pubPort]) (ipWords privIpAddr ++ [privPort]) :=
  ⟨isCksumDifference (calcIpCksum_eq pubIpAddr privIpAddr),
    isCksumDifference (calcTcpUdpCksum_eq pubIpAddr pubPort privIpAddr privPort)⟩

end EtherDevice.IpaNati
