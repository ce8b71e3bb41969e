import Mathlib
import EtherDevice.LocEng.SkyView

/-!
# The sentences on a position

Every text of a sentence is checked but the last one. The numbers are short enough for all of
them but the height of the geoid, which is a `double`.
-/

namespace EtherDevice.LocEng.Nmea

/-- What `loc_eng_nmea_generate_pos` gets, with its numbers as they are printed. A `float` has at
most 42 characters, a `double` 312. A field is `none` if its flag is not set. -/
structure Position where
  /-- `%02d%02d%02d`, and `%02d` of the hundredths, if `gmtime` gives a time. -/
  utc : Option (Num 6 × Num 3)
  date : Num 7
  latLong : Option (Num 30)
  standalone : Bool
  speed : Option (Num 42 × Num 42)
  bearing : Option (Num 42)
  dop : Option Dop
  magneticDeviation : Option (Num 42 × Bool)
  altitudeMeanSeaLevel : Option (Num 42)
  /-- The altitude less that of the mean sea level, if there is an altitude. -/
  geoid : Option (Num 312)

variable (r : Position) (cache : NmeaCache)

def usedSvs (offset mask i svUsedCount : Nat) : List Nat :=
  if _ : 0 < mask ∧ svUsedCount < 32 then
    if mask % 2 = 1 then (i + offset) :: usedSvs offset (mask / 2) (i + 1) (svUsedCount + 1)
    else usedSvs offset (mask / 2) (i + 1) svUsedCount
  else []
termination_by mask

def fixType (svUsedCount : Nat) : Char :=
  if svUsedCount = 0 then '1' else if svUsedCount ≤ 3 then '2' else '3'

def dopText (three : Dop → Text) (blank : Text) : Text :=
  match r.dop with
  | some dop => three dop
  | none => if cache.dop.positive then three cache.dop else blank

/-- The texts of a sentence that are checked, and the last one, which is not. -/
structure Pieces where
  first : Text
  checked : List Text
  last : Text

def gsa (talker : Text) (used : List Nat) : Pieces where
  first := talker ++ ",A,".toList ++ [fixType used.length] ++ [',']
  checked := (List.range 12).map fun (i : Nat) =>
    match used[i]? with
    | some sv => decimal 2 sv ++ [',']
    | none => [',']
  last := dopText r cache
    (fun dop => dop.pdop.1 ++ [','] ++ dop.hdop.1 ++ [','] ++ dop.vdop.1) ",,".toList

def modeText : Text :=
  if r.latLong.isNone then ['N'] else if r.standalone then ['A'] else ['D']

def gpvtg : Pieces where
  first :=
    match r.bearing with
    | some bearing => -- the track less its deviation is a variable of an inner block
      "$GPVTG,".toList ++ bearing.1 ++ ",T,".toList ++ bearing.1 ++ ",M,".toList
    | none => "$GPVTG,,T,,M,".toList
  checked := [
    match r.speed with
    | some (knots, kmPerHour) => knots.1 ++ ",N,".toList ++ kmPerHour.1 ++ ",K,".toList
    | none => ",N,,K,".toList]
  last := modeText r

def latLongText : Text :=
  match r.latLong with
  | some latLong => latLong.1
  | none => ",,,,".toList

def gprmc (utc : Num 6 × Num 3) : Pieces where
  first := "$GPRMC,".toList ++ utc.1.1 ++ ['.'] ++ utc.2.1 ++ ",A,".toList
  checked := [
    latLongText r,
    match r.speed with
    | some (knots, _) => knots.1 ++ [',']
    | none => [','],
    match r.bearing with
    | some bearing => bearing.1 ++ [',']
    | none => [','],
    r.date.1 ++ [','],
    match r.magneticDeviation with
    | some (variation, west) => variation.1 ++ [',', if west then 'W' else 'E', ',']
    | none => ",,".toList]
  last := modeText r

def gpgga (utc : Num 6 × Num 3) (svUsedCount : Nat) : Pieces where
  first := "$GPGGA,".toList ++ utc.1.1 ++ ['.'] ++ utc.2.1 ++ [',']
  checked := [
    latLongText r,
    let gpsQuality := if r.latLong.isNone then '0' else if r.standalone then '1' else '2'
    [gpsQuality, ','] ++ decimal 2 svUsedCount ++ [','] ++
      dopText r cache (fun dop => dop.hdop.1) [] ++ [','],
    match r.altitudeMeanSeaLevel with
    | some altitude => altitude.1 ++ ",M,".toList
    | none => ",,".toList]
  last :=
    match r.geoid, r.altitudeMeanSeaLevel with
    | some geoid, some _ => geoid.1 ++ ",M,,".toList
    | _, _ => ",,,".toList

/-- A sentence with its checksum, unless a text that is checked does not fit. -/
def Pieces.sent (p : Pieces) : Option Sent := do
  let s ← (p.first :: p.checked).foldlM Sentence.put {}
  return putChecksum NMEA_SENTENCE_MAX_LENGTH (s.text ++ snprintf s.lengthRemaining p.last)

def sendThen (cache : NmeaCache) (sentence : Option Sent) (next : NmeaCache × List Sent) :
    NmeaCache × List Sent :=
  match sentence with
  | none => (cache, [])
  | some sent => (next.1, sent :: next.2)

def blanks : List Text :=
  ["$GPGSA,A,1,,,,,,,,,,,,,,,".toList, "$GNGSA,A,1,,,,,,,,,,,,,,,".toList,
    "$GPVTG,,T,,M,,N,,K,N".toList, "$GPRMC,,V,,,,,,,,,,N".toList, "$GPGGA,,,,,,0,,,,,,,,".toList]

def GPGSA : Text := "$GPGSA".toList
def GNGSA : Text := "$GNGSA".toList

def generatePos (generate_nmea : Bool) : NmeaCache × List Sent :=
  match r.utc with
  | none => (cache, [])
  | some utc =>
    let cleared := { cache with dop := Dop.none }
    if generate_nmea then
      let svUsed := usedSvs 0 cache.gps_used_mask.toNat 1 0
      let gloUsed := usedSvs 64 cache.glo_used_mask.toNat 1 0
      let noGps := { cache with gps_used_mask := 0 }
      let noGlo := { noGps with glo_used_mask := 0 }
      sendThen noGps (gsa r cache GPGSA svUsed).sent <|
      sendThen noGlo (gsa r cache GNGSA gloUsed).sent <|
      sendThen noGlo (gpvtg r).sent <|
      sendThen noGlo (gprmc r utc).sent <|
      sendThen noGlo (gpgga r cache utc svUsed.length).sent
        ({ noGlo with dop := Dop.none }, [])
    else (cleared, blanks.map (putChecksum NMEA_SENTENCE_MAX_LENGTH))

def Pieces.text (p : Pieces) : Text :=
  p.first ++ p.checked.flatten ++ p.last

section
variable {r : Position} {cache : NmeaCache}

theorem usedSvs_bound {offset mask i svUsedCount : Nat} (hmask : mask < 2 ^ (33 - i))
    (hi : 1 ≤ i) :
    (usedSvs offset mask i svUsedCount).length ≤ 33 - i ∧
      ∀ sv ∈ usedSvs offset mask i svUsedCount, sv ≤ 32 + offset := by
  fun_induction usedSvs offset mask i svUsedCount with
  | case1 mask i svUsedCount h hodd ih =>
    have hlt : i < 33 := by
      by_contra hge
      rw [show 33 - i = 0 by omega] at hmask
      omega
    rw [show 33 - i = 33 - (i + 1) + 1 by omega, pow_succ] at hmask
    obtain ⟨hlength, hle⟩ := ih (by omega) (by omega)
    refine ⟨by rw [List.length_cons]; omega, ?_⟩
    intro sv hsv
    rcases List.mem_cons.mp hsv with rfl | hsv
    · omega
    · exact hle sv hsv
  | case2 mask i svUsedCount h heven ih =>
    have hlt : i < 33 := by
      by_contra hge
      rw [show 33 - i = 0 by omega] at hmask
      omega
    rw [show 33 - i = 33 - (i + 1) + 1 by omega, pow_succ] at hmask
    obtain ⟨hlength, hle⟩ := ih (by omega) (by omega)
    exact ⟨by omega, hle⟩
  | case3 mask i svUsedCount h => simp

theorem Pieces.sent_eq {p : Pieces} (h : p.first.length + p.checked.flatten.length < 200) :
    p.sent = some (putChecksum NMEA_SENTENCE_MAX_LENGTH (p.text.take 199)) := by
  have hflatten : (p.first :: p.checked).flatten.length < NMEA_SENTENCE_MAX_LENGTH := by
    simp only [List.flatten_cons, List.length_append, NMEA_SENTENCE_MAX_LENGTH]
    omega
  have hstored : p.text.take 199 = (p.first ++ p.checked.flatten) ++
      snprintf (NMEA_SENTENCE_MAX_LENGTH - (p.first ++ p.checked.flatten).length) p.last := by
    rw [Pieces.text, List.take_append, List.take_of_length_le (by rw [List.length_append]; omega),
      snprintf, NMEA_SENTENCE_MAX_LENGTH]
    congr 2
    omega
  rw [Pieces.sent, Sentence.foldlM_put hflatten, hstored]
  rfl

theorem dopText_length_le {three : Dop → Text} {blank : Text} {n : Nat}
    (hthree : ∀ dop, (three dop).length ≤ n) (hblank : blank.length ≤ n) :
    (dopText r cache three blank).length ≤ n := by
  unfold dopText
  split
  · exact hthree _
  · split
    · exact hthree _
    · exact hblank

theorem gsa_length_le {talker : Text} {used : List Nat} (htalker : talker.length = 6)
    (hused : ∀ sv ∈ used, sv < 10 ^ 2) :
    (gsa r cache talker used).text.length ≤ 175 := by
  have hdop : (gsa r cache talker used).last.length ≤ 128 := by
    refine dopText_length_le (fun dop => ?_) (by decide)
    have hp := dop.pdop.2
    have hh := dop.hdop.2
    have hv := dop.vdop.2
    simp
    omega
  have hsvs : (gsa r cache talker used).checked.flatten.length ≤ 3 * 12 := by
    refine (@flatten_length_le _ 3 ?_).trans (by simp [gsa])
    intro text htext
    obtain ⟨i, -, rfl⟩ := List.mem_map.mp htext
    split
    · next sv hsv =>
      have hsv := hused sv (List.mem_of_getElem? hsv)
      have hdecimal := @decimal_natCast_length_le sv 2 2 hsv le_rfl
      rw [List.length_append, List.length_singleton]
      exact Nat.succ_le_succ hdecimal
    · simp
  have hfirst : (gsa r cache talker used).first.length = 11 := by
    simp [gsa, htalker]
  simp only [Pieces.text, List.length_append]
  omega

theorem latLongText_length_le : (latLongText r).length ≤ 30 := by
  unfold latLongText
  split
  · next latLong _ => exact latLong.2
  · decide

theorem modeText_length : (modeText r).length = 1 := by
  unfold modeText
  split_ifs
  all_goals rfl

theorem gpvtg_length_le : (gpvtg r).text.length ≤ 188 := by
  have hmode := @modeText_length r
  have hbearing : (gpvtg r).first.length ≤ 97 := by
    unfold gpvtg
    split
    · next bearing _ =>
      have hbearing := bearing.2
      simp
      omega
    · simp
  have hspeed : (gpvtg r).checked.flatten.length ≤ 90 := by
    unfold gpvtg
    dsimp only
    split
    · next knots kmPerHour _ =>
      have hknots := knots.2
      have hkmPerHour := kmPerHour.2
      simp
      omega
    · decide
  simp only [Pieces.text, List.length_append]
  have hlast : (gpvtg r).last.length = 1 := hmode
  omega

theorem gprmc_length_le (utc : Num 6 × Num 3) : (gprmc r utc).text.length ≤ 190 := by
  obtain ⟨⟨hms, hhms⟩, hundredths, hhundredths⟩ := utc
  have hlatLong := @latLongText_length_le r
  have hdate := r.date.2
  have hmode := @modeText_length r
  unfold gprmc Pieces.text
  rcases r.speed with _ | ⟨⟨knots, hknots⟩, kmPerHour⟩ <;>
    rcases r.bearing with _ | ⟨bearing, hbearing⟩ <;>
    rcases r.magneticDeviation with _ | ⟨⟨variation, hvariation⟩, west⟩ <;>
    simp [hmode] <;> omega

theorem gpgga_checked_le {utc : Num 6 × Num 3} {used : Nat} (hused : used < 10 ^ 2) :
    (gpgga r cache utc used).first.length + (gpgga r cache utc used).checked.flatten.length <
      200 := by
  obtain ⟨⟨hms, hhms⟩, hundredths, hhundredths⟩ := utc
  have hlatLong := @latLongText_length_le r
  have hsvs : (decimal 2 (used : Int)).length ≤ 2 := decimal_natCast_length_le hused le_rfl
  have hdop : (dopText r cache (fun dop => dop.hdop.1) []).length ≤ 42 :=
    dopText_length_le (fun dop => dop.hdop.2) (by simp)
  unfold gpgga
  rcases r.altitudeMeanSeaLevel with _ | ⟨altitude, haltitude⟩ <;> simp <;> omega

theorem Pieces.wellFormed {p : Pieces} (hdollar : p.first.head? = some '$')
    (h : p.text.length < 195) :
    ∃ sent, p.sent = some sent ∧ WellFormed p.text sent := by
  have hlength := h
  simp only [Pieces.text, List.length_append] at hlength
  obtain ⟨first, hfirst⟩ := List.head?_eq_some_iff.mp hdollar
  have hbody : p.text = '$' :: (first ++ p.checked.flatten ++ p.last) := by
    simp [Pieces.text, hfirst]
  refine ⟨_, Pieces.sent_eq (by omega), ?_⟩
  rw [List.take_of_length_le (by omega), hbody]
  refine wellFormed_putChecksum ?_
  rw [hbody, List.length_cons] at h
  omega

theorem used_lt {offset : Nat} {mask : BitVec 32} (hoffset : offset ≤ 64) {sv : Nat}
    (hsv : sv ∈ usedSvs offset mask.toNat 1 0) : sv < 10 ^ 2 := by
  have hle := (usedSvs_bound (by have := mask.isLt; omega) le_rfl).2 sv hsv
  omega

end

inductive Report
  | position (r : Position) (generate_nmea : Bool)
  | satellites (svStatus : HaxxSvStatus) (extended : Option Dop)

def Report.sent (cache : NmeaCache) : Report → List Sent
  | position r generate_nmea => (generatePos r cache generate_nmea).2
  | satellites svStatus extended => (generateSv svStatus cache extended).2

def geoidText (cache : NmeaCache) (r : Position) (utc : Num 6 × Num 3) : Text :=
  (gpgga r cache utc (usedSvs 0 cache.gps_used_mask.toNat 1 0).length).text

def Report.texts (cache : NmeaCache) : Report → List Text
  | position r true =>
    match r.utc with
    | none => []
    | some utc =>
      [(gsa r cache GPGSA (usedSvs 0 cache.gps_used_mask.toNat 1 0)).text,
        (gsa r cache GNGSA (usedSvs 64 cache.glo_used_mask.toNat 1 0)).text,
        (gpvtg r).text, (gprmc r utc).text, geoidText cache r utc]
  | position r false => if r.utc.isSome then blanks else []
  | satellites svStatus _ =>
    gsvTexts GPGSV (svStatus.svs.filter (isGps ·.prn)) ++
      gsvTexts GLGSV (svStatus.svs.filter (isGlonass ·.prn))

/-- There is room for the checksum behind the height of the geoid. -/
def Report.Short (cache : NmeaCache) : Report → Prop
  | position r generate_nmea => generate_nmea = true → ∀ utc, r.utc = some utc →
    (geoidText cache r utc).length < 195
  | satellites _ _ => True

/-- The texts are sent in turn, each well formed. What does not fit is not sent. -/
def Report.Sends (cache : NmeaCache) (report : Report) : Prop :=
  ∃ texts, texts <+: report.texts cache ∧ List.Forall₂ WellFormed texts (report.sent cache)

theorem wellFormed_sealed {text : Text} (hdollar : text.head? = some '$')
    (h : text.length < 195) : WellFormed text (sealed text) := by
  obtain ⟨body, rfl⟩ := List.head?_eq_some_iff.mp hdollar
  rw [← putChecksum_eq_sealed (by simp) h]
  rw [List.length_cons] at h
  exact wellFormed_putChecksum (by omega)

theorem wellFormed_gsvTexts {talker : Text} {svs : List GpsSvInfo} {select : Int → Bool}
    (hselect : TwoDigits select) (hlength : talker.length = 6) (hdollar : talker.head? = some '$')
    (hsvs : ∀ sv ∈ svs, select sv.prn = true) (hcount : svs.length < 2 ^ 31) :
    ∀ text ∈ gsvTexts talker svs, WellFormed text (sealed text) := by
  intro text htext
  obtain ⟨rest, hrest⟩ := List.head?_eq_some_iff.mp hdollar
  unfold gsvTexts at htext
  split at htext
  · rw [List.mem_singleton] at htext
    refine wellFormed_sealed (by simp [htext, hrest]) ?_
    rw [htext, List.length_append, hlength]
    decide
  · obtain ⟨k, hk, rfl⟩ := List.mem_map.mp htext
    exact wellFormed_sealed (by simp [gsvText, header, hrest])
      (gsvText_length_lt hselect hlength hsvs hcount (List.mem_range.mp hk))

theorem wellFormed_blanks :
    List.Forall₂ WellFormed blanks (blanks.map (putChecksum NMEA_SENTENCE_MAX_LENGTH)) := by
  rw [List.forall₂_map_right_iff, List.forall₂_same]
  intro text htext
  have hblank : text.head? = some '$' ∧ text.length < 195 := by
    revert text
    decide
  have hsealed := wellFormed_sealed hblank.1 hblank.2
  rwa [← putChecksum_eq_sealed (by rintro rfl; simp at hblank) hblank.2] at hsealed

theorem sends_satellites (cache : NmeaCache) (svStatus : HaxxSvStatus) (extended : Option Dop) :
    Report.Sends cache (.satellites svStatus extended) := by
  refine ⟨_, List.prefix_refl _, ?_⟩
  have hcount (select : Int → Bool) :
      (svStatus.svs.filter (select ·.prn)).length < 2 ^ 31 :=
    lt_of_le_of_lt (List.length_filter_le _ _) svs_length_lt
  rw [Report.sent, generateSv, generateSvSentences_eq]
  refine List.forall₂_map_right_iff.mpr (List.forall₂_same.mpr ?_)
  intro text htext
  rcases List.mem_append.mp htext with hgps | hgln
  · exact wellFormed_gsvTexts twoDigits_isGps rfl rfl
      (fun sv hsv => (List.mem_filter.mp hsv).2) (hcount isGps) text hgps
  · exact wellFormed_gsvTexts twoDigits_isGlonass rfl rfl
      (fun sv hsv => (List.mem_filter.mp hsv).2) (hcount isGlonass) text hgln

theorem sends_position_iff (cache : NmeaCache) (r : Position) (generate_nmea : Bool) :
    Report.Sends cache (.position r generate_nmea) ↔
      Report.Short cache (.position r generate_nmea) := by
  cases hutc : r.utc with
  | none =>
    have hnone : Report.sent cache (.position r generate_nmea) = [] := by
      simp only [Report.sent, generatePos, hutc]
    simp only [Report.Sends, Report.Short, hnone, hutc]
    exact iff_of_true ⟨[], List.nil_prefix, .nil⟩ fun _ => nofun
  | some utc =>
    cases generate_nmea with
    | false =>
      have hblank : Report.sent cache (.position r false) =
          blanks.map (putChecksum NMEA_SENTENCE_MAX_LENGTH) := by
        simp [Report.sent, generatePos, hutc]
      refine ⟨fun _ => nofun, fun _ => ⟨blanks, ?_, hblank ▸ wellFormed_blanks⟩⟩
      simp [Report.texts, hutc]
    | true =>
      have hused : (usedSvs 0 cache.gps_used_mask.toNat 1 0).length < 10 ^ 2 := by
        have hle := (@usedSvs_bound 0 cache.gps_used_mask.toNat 1 0
          (by have := cache.gps_used_mask.isLt; omega) le_rfl).1
        omega
      obtain ⟨sent₁, hsent₁, hwell₁⟩ := Pieces.wellFormed
        (p := gsa r cache GPGSA (usedSvs 0 cache.gps_used_mask.toNat 1 0)) rfl
        (lt_of_le_of_lt (gsa_length_le rfl fun sv => used_lt (by omega)) (by omega))
      obtain ⟨sent₂, hsent₂, hwell₂⟩ := Pieces.wellFormed
        (p := gsa r cache GNGSA (usedSvs 64 cache.glo_used_mask.toNat 1 0)) rfl
        (lt_of_le_of_lt (gsa_length_le rfl fun sv => used_lt (by omega)) (by omega))
      obtain ⟨sent₃, hsent₃, hwell₃⟩ := Pieces.wellFormed (p := gpvtg r)
        (by unfold gpvtg; cases r.bearing <;> rfl)
        (lt_of_le_of_lt gpvtg_length_le (by omega))
      obtain ⟨sent₄, hsent₄, hwell₄⟩ := Pieces.wellFormed (p := gprmc r utc) rfl
        (lt_of_le_of_lt (gprmc_length_le utc) (by omega))
      have hsent₅ := Pieces.sent_eq (@gpgga_checked_le r cache utc _ hused)
      simp only [Report.Sends, Report.sent, Report.Short, generatePos, hsent₁, hsent₂, hsent₃,
        hsent₄, hsent₅, sendThen, if_true, Report.texts, hutc, forall_const, Option.some.injEq,
        forall_eq']
      constructor
      · rintro ⟨texts, -, hwell⟩
        by_contra hlong
        obtain ⟨text, -, hwell₅⟩ : ∃ text ∈ texts, WellFormed text
            (putChecksum NMEA_SENTENCE_MAX_LENGTH ((geoidText cache r utc).take 199)) := by
          cases hwell with
          | cons _ h => cases h with
            | cons _ h => cases h with
              | cons _ h => cases h with
                | cons _ h => cases h with
                  | cons h _ => exact ⟨_, by simp, h⟩
        refine not_wellFormed_putChecksum ?_ hwell₅
        rw [List.length_take]
        omega
      · intro hshort
        obtain ⟨sent, hsent, hwell₅⟩ := Pieces.wellFormed
          (p := gpgga r cache utc (usedSvs 0 cache.gps_used_mask.toNat 1 0).length) rfl hshort
        rw [hsent₅, Option.some.injEq] at hsent
        subst hsent
        exact ⟨_, List.prefix_refl _, .cons hwell₁ (.cons hwell₂ (.cons hwell₃
          (.cons hwell₄ (.cons hwell₅ .nil))))⟩

/-- Whatever the report, exactly the checksum behind the height of the geoid can be cut off. -/
theorem sends_iff (cache : NmeaCache) (report : Report) :
    report.Sends cache ↔ report.Short cache := by
  cases report with
  | position r generate_nmea => exact sends_position_iff cache r generate_nmea
  | satellites svStatus extended =>
    exact iff_of_true (sends_satellites cache svStatus extended) trivial

/-- A height of two hundred digits, as a `double` can have it. -/
def highGeoid : Num 312 :=
  ⟨List.replicate 200 '1' ++ ".0".toList, by rw [List.length_append, List.length_replicate]; decide⟩

theorem zeroText_length : "0.0".toList.length ≤ 42 := by decide

def highFix : Position where
  utc := some (⟨"120000".toList, by decide⟩, ⟨"00".toList, by decide⟩)
  date := ⟨"010116".toList, by decide⟩
  latLong := none
  standalone := true
  speed := none
  bearing := none
  dop := none
  magneticDeviation := none
  altitudeMeanSeaLevel := some ⟨"0.0".toList, zeroText_length⟩
  geoid := some highGeoid

theorem not_sends : ¬∀ (cache : NmeaCache) (report : Report), report.Sends cache := by
  intro h
  obtain ⟨utc, hutc⟩ : ∃ utc, highFix.utc = some utc := ⟨_, rfl⟩
  have hshort := (sends_position_iff ⟨0, 0, Dop.none⟩ highFix true).mp (h _ _)
  have hlt := hshort rfl utc hutc
  have hlast (cache : NmeaCache) (n : Nat) : (gpgga highFix cache utc n).last.length = 206 := by
    change (highGeoid.1 ++ ",M,,".toList).length = 206
    rw [highGeoid, List.length_append, List.length_append, List.length_replicate]
    decide
  rw [geoidText, Pieces.text, List.length_append, hlast] at hlt
  omega

end EtherDevice.LocEng.Nmea
