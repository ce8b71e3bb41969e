import EtherDevice.LocEng.Sentences

/-!
# The satellites in view

The satellites of each constellation are listed in sentences of four. The two loops share a
satellite number that skips those of the other constellation.
-/

namespace EtherDevice.LocEng.Nmea

/-- `GpsSvInfo`. Elevation, azimuth and signal are as they are printed, cast to `int`. -/
structure GpsSvInfo where
  prn : Int
  elevation : BitVec 32
  azimuth : BitVec 32
  snr : BitVec 32
  snrPositive : Bool
deriving DecidableEq

/-- `HaxxSvStatus`. No more satellites are reported than the array has. -/
structure HaxxSvStatus where
  num_svs : Int
  sv_list : List GpsSvInfo
  gps_used_in_fix_mask : BitVec 32
  glo_used_in_fix_mask : BitVec 32
  inside : num_svs ≤ sv_list.length
  int : num_svs < 2 ^ 31

def isGps (prn : Int) : Bool :=
  decide (1 ≤ prn) && decide (prn ≤ 32)

def isGlonass (prn : Int) : Bool :=
  decide (65 ≤ prn) && decide (prn ≤ 96)

inductive Fault
  | formatting
  | beyondReport
deriving DecidableEq

variable (svStatus : HaxxSvStatus)

def countSvs (svNumber gpsCount glnCount : Nat) : Except Fault (Nat × Nat) :=
  if _ : (svNumber : Int) ≤ svStatus.num_svs then
    match svStatus.sv_list[svNumber - 1]? with
    | none => .error .beyondReport
    | some sv =>
      if isGps sv.prn then countSvs (svNumber + 1) (gpsCount + 1) glnCount
      else if isGlonass sv.prn then countSvs (svNumber + 1) gpsCount (glnCount + 1)
      else countSvs (svNumber + 1) gpsCount glnCount
  else .ok (gpsCount, glnCount)
termination_by (svStatus.num_svs + 1 - svNumber).toNat

def put (s : Sentence) (piece : Text) : Except Fault Sentence :=
  match s.put piece with
  | none => .error .formatting
  | some s' => .ok s'

def position (sv : GpsSvInfo) : Text :=
  [','] ++ decimal 2 sv.prn ++ [','] ++ decimal 2 sv.elevation.toInt ++ [','] ++
    decimal 3 sv.azimuth.toInt ++ [',']

def listSvs (select : Int → Bool) (svNumber i : Nat) (s : Sentence) :
    Except Fault (Nat × Sentence) :=
  if _ : (svNumber : Int) ≤ svStatus.num_svs ∧ i < 4 then
    match svStatus.sv_list[svNumber - 1]? with
    | none => .error .beyondReport
    | some sv =>
      if select sv.prn then
        match put s (position sv) with
        | .error fault => .error fault
        | .ok s =>
          if sv.snrPositive then
            match put s (decimal 2 sv.snr.toInt) with
            | .error fault => .error fault
            | .ok s => listSvs select (svNumber + 1) (i + 1) s
          else listSvs select (svNumber + 1) (i + 1) s
      else listSvs select (svNumber + 1) i s
  else .ok (svNumber, s)
termination_by (svStatus.num_svs + 1 - svNumber).toNat

def header (talker : Text) (sentenceCount sentenceNumber count : Nat) : Text :=
  talker ++ [','] ++ decimal 1 sentenceCount ++ [','] ++ decimal 1 sentenceNumber ++ [','] ++
    decimal 2 count

def listSentences (talker : Text) (select : Int → Bool) (sentenceCount count : Nat)
    (sentenceNumber svNumber : Nat) : List Sent × Option Fault :=
  if _ : sentenceNumber ≤ sentenceCount then
    match put {} (header talker sentenceCount sentenceNumber count) with
    | .error fault => ([], some fault)
    | .ok s =>
      match listSvs svStatus select svNumber 0 s with
      | .error fault => ([], some fault)
      | .ok (svNumber, s) =>
        let rest := listSentences talker select sentenceCount count (sentenceNumber + 1) svNumber
        (putChecksum NMEA_SENTENCE_MAX_LENGTH s.text :: rest.1, rest.2)
  else ([], none)
termination_by sentenceCount + 1 - sentenceNumber

def gsv (talker : Text) (select : Int → Bool) (count : Nat) : List Sent × Option Fault :=
  if count = 0 then
    ([putChecksum NMEA_SENTENCE_MAX_LENGTH (talker ++ ",1,1,0,".toList)], none)
  else
    listSentences svStatus talker select (count / 4 + if count % 4 ≠ 0 then 1 else 0) count 1 1

def GPGSV : Text := "$GPGSV".toList
def GLGSV : Text := "$GLGSV".toList

/-- The sentences that `loc_eng_nmea_generate_sv` sends, and why it stops early. -/
def generateSvSentences : List Sent × Option Fault :=
  match countSvs svStatus 1 0 0 with
  | .error fault => ([], some fault)
  | .ok (gpsCount, glnCount) =>
    let gps := gsv svStatus GPGSV isGps gpsCount
    match gps.2 with
    | some fault => (gps.1, some fault)
    | none =>
      let gln := gsv svStatus GLGSV isGlonass glnCount
      (gps.1 ++ gln.1, gln.2)

/-- A number with at most `width` characters, as `snprintf` prints it. -/
def Num (width : Nat) := {text : Text // text.length ≤ width}

/-- The dilution of precision, whose floats have at most 42 characters. `positive` says that all
three are above zero. -/
structure Dop where
  pdop : Num 42
  hdop : Num 42
  vdop : Num 42
  positive : Bool

/-- What a report on the satellites leaves in `loc_eng_data_s_type` for one on the position. -/
structure NmeaCache where
  gps_used_mask : BitVec 32
  glo_used_mask : BitVec 32
  dop : Dop

def Dop.none : Dop :=
  let zero : Num 42 := ⟨"0.0".toList, by decide⟩
  { pdop := zero, hdop := zero, vdop := zero, positive := false }

/-- `loc_eng_nmea_generate_sv`: what it sends, and what it leaves. -/
def generateSv (cache : NmeaCache) (extended : Option Dop) : NmeaCache × List Sent :=
  match generateSvSentences svStatus with
  | (sent, some _) => (cache, sent)
  | (sent, none) =>
    ({ gps_used_mask := svStatus.gps_used_in_fix_mask
       glo_used_mask := svStatus.glo_used_in_fix_mask
       dop := extended.getD Dop.none }, sent)

def HaxxSvStatus.svs : List GpsSvInfo :=
  svStatus.sv_list.take svStatus.num_svs.toNat

def describe (sv : GpsSvInfo) : Text :=
  position sv ++ if sv.snrPositive then decimal 2 sv.snr.toInt else []

/-- The four satellites of the sentence after the first `k`. -/
def fourth {α : Type*} (svs : List α) (k : Nat) : List α :=
  (svs.drop (4 * k)).take 4

def sentences (count : Nat) : Nat :=
  (count + 3) / 4

def gsvText (talker : Text) (svs : List GpsSvInfo) (k : Nat) : Text :=
  header talker (sentences svs.length) (k + 1) svs.length ++ (fourth svs k).flatMap describe

def gsvTexts (talker : Text) (svs : List GpsSvInfo) : List Text :=
  if svs = [] then [talker ++ ",1,1,0,".toList]
  else (List.range (sentences svs.length)).map (gsvText talker svs)

section
variable {svStatus : HaxxSvStatus}

theorem svs_at {svNumber : Nat} {sv : GpsSvInfo} {rest : List GpsSvInfo}
    (hpos : 0 < svNumber) (h : svStatus.svs.drop (svNumber - 1) = sv :: rest) :
    (svNumber : Int) ≤ svStatus.num_svs ∧ svStatus.sv_list[svNumber - 1]? = some sv ∧
      svStatus.svs.drop (svNumber + 1 - 1) = rest := by
  have hget : svStatus.svs[svNumber - 1]? = some sv := by
    rw [← List.head?_drop, h]
    rfl
  have hlt := (List.getElem?_eq_some_iff.mp hget).1
  have hnum : svNumber - 1 < svStatus.num_svs.toNat := by
    have := List.length_take_le svStatus.num_svs.toNat svStatus.sv_list
    exact lt_of_lt_of_le hlt this
  refine ⟨by omega, ?_, ?_⟩
  · rwa [HaxxSvStatus.svs, List.getElem?_take_of_lt hnum] at hget
  · have htail := congrArg List.tail h
    rw [List.tail_drop] at htail
    simpa [show svNumber - 1 + 1 = svNumber by omega] using htail

theorem svs_end {svNumber : Nat} (hpos : 0 < svNumber)
    (h : svStatus.svs.drop (svNumber - 1) = []) : ¬(svNumber : Int) ≤ svStatus.num_svs := by
  have hlength := List.drop_eq_nil_iff.mp h
  have hinside := svStatus.inside
  rw [HaxxSvStatus.svs, List.length_take] at hlength
  omega

theorem svs_length_lt : svStatus.svs.length < 2 ^ 31 := by
  have hint := svStatus.int
  have := List.length_take_le svStatus.num_svs.toNat svStatus.sv_list
  rw [HaxxSvStatus.svs]
  omega

theorem countSvs_eq {rest : List GpsSvInfo} {svNumber gpsCount glnCount : Nat}
    (hpos : 0 < svNumber) (h : svStatus.svs.drop (svNumber - 1) = rest) :
    countSvs svStatus svNumber gpsCount glnCount =
      .ok (gpsCount + rest.countP (isGps ·.prn), glnCount + rest.countP (isGlonass ·.prn)) := by
  induction rest generalizing svNumber gpsCount glnCount with
  | nil =>
    rw [countSvs, dif_neg (svs_end hpos h)]
    rfl
  | cons sv rest ih =>
    obtain ⟨hle, hget, hrest⟩ := svs_at hpos h
    have hapart : isGps sv.prn = true → isGlonass sv.prn = false := by
      simp [isGps, isGlonass]
      omega
    rw [countSvs, dif_pos hle, hget]
    dsimp only
    rw [ih (by omega) hrest, ih (by omega) hrest, ih (by omega) hrest]
    cases hgps : isGps sv.prn with
    | true => simp [hgps, hapart hgps, Nat.add_assoc, Nat.add_comm 1]
    | false =>
      cases hgln : isGlonass sv.prn with
      | true => simp [hgps, hgln, Nat.add_assoc, Nat.add_comm 1]
      | false => simp [hgps, hgln]

theorem natAbs_toInt_lt (x : BitVec 32) : x.toInt.natAbs < 10 ^ 10 := by
  have hlt := x.toInt_lt
  have hle := x.le_toInt
  norm_num at hlt hle
  omega

theorem position_length_le {sv : GpsSvInfo} (h : sv.prn.natAbs < 10 ^ 2)
    (hpos : 0 ≤ sv.prn) : (position sv).length ≤ 28 := by
  have hprn : (decimal 2 sv.prn).length ≤ 2 := by
    obtain ⟨n, hn⟩ := Int.eq_ofNat_of_zero_le hpos
    rw [hn] at h ⊢
    exact decimal_natCast_length_le h (by omega)
  have helevation : (decimal 2 sv.elevation.toInt).length ≤ 11 :=
    decimal_length_le (natAbs_toInt_lt _) (by omega)
  have hazimuth : (decimal 3 sv.azimuth.toInt).length ≤ 11 :=
    decimal_length_le (natAbs_toInt_lt _) (by omega)
  simp [position]
  omega

theorem snr_length_le (sv : GpsSvInfo) : (decimal 2 sv.snr.toInt).length ≤ 11 :=
  decimal_length_le (natAbs_toInt_lt _) (by omega)

theorem put_ok {s : Sentence} {piece : Text} (h : piece.length < s.lengthRemaining) :
    put s piece = .ok ⟨s.text ++ piece, s.lengthRemaining - piece.length⟩ := by
  rw [put, Sentence.put_eq h]

variable {select : Int → Bool}

def TwoDigits (select : Int → Bool) : Prop :=
  ∀ prn, select prn = true → 0 ≤ prn ∧ prn.natAbs < 10 ^ 2

theorem twoDigits_isGps : TwoDigits isGps := by
  intro prn h
  simp [isGps] at h
  omega

theorem twoDigits_isGlonass : TwoDigits isGlonass := by
  intro prn h
  simp [isGlonass] at h
  omega

theorem describe_length_le (hselect : TwoDigits select) {sv : GpsSvInfo}
    (h : select sv.prn = true) : (describe sv).length ≤ 39 := by
  have hposition := position_length_le (hselect _ h).2 (hselect _ h).1
  have hsnr := snr_length_le sv
  unfold describe
  split
  · rw [List.length_append]
    omega
  · simp
    omega

theorem flatMap_describe_length_le (hselect : TwoDigits select) {svs : List GpsSvInfo}
    (h : ∀ sv ∈ svs, select sv.prn = true) :
    (svs.flatMap describe).length ≤ 39 * svs.length := by
  have hle := @flatten_length_le (svs.map describe) 39 fun text htext => by
    obtain ⟨sv, hsv, rfl⟩ := List.mem_map.mp htext
    exact describe_length_le hselect (h sv hsv)
  rwa [List.length_map] at hle

theorem listSvs_eq (hselect : TwoDigits select) {rest : List GpsSvInfo} {svNumber i : Nat}
    {s : Sentence} (hpos : 0 < svNumber) (h : svStatus.svs.drop (svNumber - 1) = rest)
    (hroom : 39 * (4 - i) < s.lengthRemaining) :
    ∃ svNumber' s', listSvs svStatus select svNumber i s = .ok (svNumber', s') ∧ 0 < svNumber' ∧
      (svStatus.svs.drop (svNumber' - 1)).filter (select ·.prn) =
        (rest.filter (select ·.prn)).drop (4 - i) ∧
      s'.text = s.text ++ ((rest.filter (select ·.prn)).take (4 - i)).flatMap describe := by
  induction rest generalizing svNumber i s with
  | nil =>
    refine ⟨svNumber, s, ?_, hpos, ?_, ?_⟩
    · rw [listSvs, dif_neg fun hand => svs_end hpos h hand.1]
    · simp [h]
    · simp
  | cons sv rest ih =>
    obtain ⟨hle, hget, hrest⟩ := svs_at hpos h
    rw [listSvs]
    by_cases hi : i < 4
    · rw [dif_pos ⟨hle, hi⟩, hget]
      dsimp only
      by_cases hsv : select sv.prn = true
      · have hposition := position_length_le (hselect _ hsv).2 (hselect _ hsv).1
        have hsnr := snr_length_le sv
        have hfour : 4 - i = 4 - (i + 1) + 1 := by omega
        rw [if_pos hsv, put_ok (by omega)]
        dsimp only
        by_cases hpositive : sv.snrPositive = true
        · rw [if_pos hpositive, put_ok (by dsimp only; omega)]
          obtain ⟨svNumber', s', heq, hpos', hleft, htext⟩ :=
            @ih (svNumber + 1) (i + 1) ⟨s.text ++ position sv ++ decimal 2 sv.snr.toInt,
              s.lengthRemaining - (position sv).length - (decimal 2 sv.snr.toInt).length⟩
              (by omega) hrest (by dsimp only; omega)
          refine ⟨svNumber', s', heq, hpos', ?_, ?_⟩
          · simp [hleft, hsv, hfour]
          · simp [htext, hsv, hfour, describe, hpositive]
        · rw [if_neg hpositive]
          obtain ⟨svNumber', s', heq, hpos', hleft, htext⟩ :=
            @ih (svNumber + 1) (i + 1)
              ⟨s.text ++ position sv, s.lengthRemaining - (position sv).length⟩
              (by omega) hrest (by dsimp only; omega)
          refine ⟨svNumber', s', heq, hpos', ?_, ?_⟩
          · simp [hleft, hsv, hfour]
          · simp [htext, hsv, hfour, describe, hpositive]
      · rw [if_neg hsv]
        obtain ⟨svNumber', s', heq, hpos', hleft, htext⟩ :=
          @ih (svNumber + 1) i s (by omega) hrest hroom
        refine ⟨svNumber', s', heq, hpos', ?_, ?_⟩
        · simp [hleft, hsv]
        · simp [htext, hsv]
    · refine ⟨svNumber, s, dif_neg fun hand => hi hand.2, hpos, ?_, ?_⟩
      · simp [h, show 4 - i = 0 by omega]
      · simp [show 4 - i = 0 by omega]

def sealed (text : Text) : Sent :=
  ⟨text ++ trailer text.tail, text.length + 5⟩

theorem putChecksum_eq_sealed {text : Text} (htext : text ≠ []) (h : text.length < 195) :
    putChecksum NMEA_SENTENCE_MAX_LENGTH text = sealed text :=
  putChecksum_eq htext (by simp only [NMEA_SENTENCE_MAX_LENGTH]; omega)

theorem header_length_le {talker : Text} {count k : Nat} (htalker : talker.length = 6)
    (hcount : count < 2 ^ 31) (hk : k < sentences count) :
    (header talker (sentences count) (k + 1) count).length ≤ 37 := by
  have hsentences : sentences count < 10 ^ 9 := by
    unfold sentences
    omega
  have htotal : (decimal 1 (sentences count : Nat)).length ≤ 9 :=
    decimal_natCast_length_le hsentences (by omega)
  have hnumber : (decimal 1 ((k + 1 : Nat) : Int)).length ≤ 9 :=
    decimal_natCast_length_le (by omega) (by omega)
  have hsvs : (decimal 2 (count : Nat)).length ≤ 10 :=
    decimal_natCast_length_le (by omega) (by omega)
  simp only [header, List.length_append, List.length_cons, List.length_nil]
  omega

theorem gsvText_length_lt {talker : Text} {svs : List GpsSvInfo} {k : Nat}
    (hselect : TwoDigits select) (htalker : talker.length = 6)
    (hsvs : ∀ sv ∈ svs, select sv.prn = true) (hcount : svs.length < 2 ^ 31)
    (hk : k < sentences svs.length) :
    (gsvText talker svs k).length < 195 := by
  have hheader := header_length_le htalker hcount hk
  have hlist : ((fourth svs k).flatMap describe).length ≤ 39 * (fourth svs k).length :=
    flatMap_describe_length_le hselect fun sv hsv =>
      hsvs sv (List.mem_of_mem_drop (List.mem_of_mem_take hsv))
  have hfour : (fourth svs k).length ≤ 4 := List.length_take_le _ _
  rw [gsvText, List.length_append]
  omega

theorem listSentences_eq {talker : Text} {svs : List GpsSvInfo} {k n svNumber : Nat}
    (hselect : TwoDigits select) (htalker : talker.length = 6)
    (hsvs : svs = svStatus.svs.filter (select ·.prn)) (hpos : 0 < svNumber)
    (hk : k + n = sentences svs.length)
    (h : (svStatus.svs.drop (svNumber - 1)).filter (select ·.prn) = svs.drop (4 * k)) :
    listSentences svStatus talker select (sentences svs.length) svs.length (k + 1) svNumber =
      ((List.range' k n).map fun k => sealed (gsvText talker svs k), none) := by
  induction n generalizing k svNumber with
  | zero =>
    rw [listSentences, dif_neg (by omega)]
    rfl
  | succ n ih =>
    have hselected : ∀ sv ∈ svs, select sv.prn = true := by
      intro sv hsv
      rw [hsvs] at hsv
      exact (List.mem_filter.mp hsv).2
    have hcount : svs.length < 2 ^ 31 := by
      rw [hsvs]
      exact lt_of_le_of_lt (List.length_filter_le _ _) svs_length_lt
    have hheader := header_length_le htalker hcount (show k < sentences svs.length by omega)
    have htext := gsvText_length_lt hselect htalker hselected hcount
      (show k < sentences svs.length by omega)
    have hnonempty : gsvText talker svs k ≠ [] := by
      intro hnil
      have hlength := congrArg List.length hnil
      simp only [gsvText, header, List.length_append, List.length_nil] at hlength
      omega
    obtain ⟨svNumber', s', heq, hpos', hleft, hs'⟩ :=
      @listSvs_eq svStatus select hselect _ svNumber 0
        ⟨header talker (sentences svs.length) (k + 1) svs.length, NMEA_SENTENCE_MAX_LENGTH -
          (header talker (sentences svs.length) (k + 1) svs.length).length⟩
        hpos rfl (by simp only [NMEA_SENTENCE_MAX_LENGTH]; omega)
    have hwhole : s'.text = gsvText talker svs k := by
      rw [hs', h]
      rfl
    rw [listSentences, dif_pos (by omega), put_ok (by simp only [NMEA_SENTENCE_MAX_LENGTH]; omega)]
    dsimp only [List.nil_append]
    rw [heq]
    dsimp only
    rw [ih hpos' (by omega) (by rw [hleft, h, List.drop_drop]; congr 1), hwhole,
      putChecksum_eq_sealed hnonempty htext]
    rfl

theorem gsv_eq {talker : Text} {svs : List GpsSvInfo} (hselect : TwoDigits select)
    (htalker : talker.length = 6) (hsvs : svs = svStatus.svs.filter (select ·.prn)) :
    gsv svStatus talker select svs.length = ((gsvTexts talker svs).map sealed, none) := by
  unfold gsv gsvTexts
  by_cases hnil : svs = []
  · have hblank : (talker ++ ",1,1,0,".toList).length < 195 := by
      rw [List.length_append, htalker]
      decide
    rw [if_pos (by simp [hnil]), if_pos hnil,
      putChecksum_eq_sealed (by simp) hblank]
    rfl
  · have hcount : svs.length / 4 + (if svs.length % 4 ≠ 0 then 1 else 0) =
        sentences svs.length := by
      unfold sentences
      split
      · omega
      · omega
    rw [if_neg (by simpa using hnil), if_neg hnil, hcount]
    refine (listSentences_eq hselect htalker hsvs (k := 0) Nat.one_pos (Nat.zero_add _) ?_).trans ?_
    · simp [hsvs]
    · simp [List.range_eq_range']

theorem generateSvSentences_eq :
    generateSvSentences svStatus =
      ((gsvTexts GPGSV (svStatus.svs.filter (isGps ·.prn)) ++
        gsvTexts GLGSV (svStatus.svs.filter (isGlonass ·.prn))).map sealed, none) := by
  unfold generateSvSentences
  rw [countSvs_eq Nat.one_pos rfl]
  simp only [Nat.zero_add, Nat.sub_self, List.drop_zero, List.countP_eq_length_filter]
  rw [gsv_eq twoDigits_isGps rfl rfl, gsv_eq twoDigits_isGlonass rfl rfl]
  simp

end

section
variable {α : Type*} {svs : List α}

theorem fourth_length_le (k : Nat) : (fourth svs k).length ≤ 4 :=
  List.length_take_le _ _

theorem fourth_ne_nil {k : Nat} (hk : k < sentences svs.length) : fourth svs k ≠ [] := by
  intro hnil
  have hlength := congrArg List.length hnil
  simp only [fourth, List.length_take, List.length_drop, List.length_nil, sentences] at hlength hk
  omega

theorem flatMap_fourth_range' (n k : Nat) :
    (List.range' k n).flatMap (fourth svs) = (svs.drop (4 * k)).take (4 * n) := by
  induction n generalizing k with
  | zero => simp
  | succ n ih =>
    rw [List.range'_succ, List.flatMap_cons, ih, fourth]
    have hsplit : 4 * (n + 1) = 4 + 4 * n := by omega
    rw [hsplit, List.take_add, List.drop_drop]
    congr 3

theorem flatMap_fourth : (List.range (sentences svs.length)).flatMap (fourth svs) = svs := by
  rw [List.range_eq_range', flatMap_fourth_range', Nat.mul_zero, List.drop_zero]
  refine List.take_of_length_le ?_
  unfold sentences
  omega

end

/-- The sentences of a constellation, and the satellites that each lists. -/
structure Covers (talker : Text) (svs : List GpsSvInfo) (sent : List Sent) : Prop where
  blank : svs = [] → sent = [sealed (talker ++ ",1,1,0,".toList)]
  listed : svs ≠ [] → sent = (List.range (sentences svs.length)).map fun k =>
    sealed (header talker (sentences svs.length) (k + 1) svs.length ++
      (fourth svs k).flatMap describe)
  four : ∀ k < sentences svs.length, fourth svs k ≠ [] ∧ (fourth svs k).length ≤ 4
  once : (List.range (sentences svs.length)).flatMap (fourth svs) = svs

theorem covers_gsvTexts (talker : Text) (svs : List GpsSvInfo) :
    Covers talker svs ((gsvTexts talker svs).map sealed) where
  blank h := by simp [gsvTexts, h]
  listed h := by
    rw [gsvTexts, if_neg h, List.map_map]
    rfl
  four k hk := ⟨fourth_ne_nil hk, fourth_length_le k⟩
  once := flatMap_fourth

/-- Whatever the report, the sentences of the one constellation follow those of the other, each
lists the satellites of its own, and nothing but the report is read. -/
theorem gsv_covers (svStatus : HaxxSvStatus) (cache : NmeaCache) (extended : Option Dop) :
    ∃ gps gln, (generateSv svStatus cache extended).2 = gps ++ gln ∧
      (generateSvSentences svStatus).2 = none ∧
      Covers GPGSV (svStatus.svs.filter (isGps ·.prn)) gps ∧
      Covers GLGSV (svStatus.svs.filter (isGlonass ·.prn)) gln := by
  refine ⟨_, _, ?_, ?_, covers_gsvTexts _ _, covers_gsvTexts _ _⟩
  · rw [generateSv, generateSvSentences_eq, List.map_append]
  · rw [generateSvSentences_eq]

end EtherDevice.LocEng.Nmea
