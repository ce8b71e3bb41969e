import Mathlib
import EtherDevice.Lib.Numerals

/-!
# Focus and metering areas

The application writes areas as a text. `setAreas` is what `setFocusAreas` and `setMeteringAreas`
share; the scaling to the preview, which has floating numbers, is left out. `long` has 32 bits, and
memory is available. `undefined` stands for a write behind `area_str` and for a signed overflow.
Whatever the text is, the camera gets areas within the picture, and not too many
(`setAreas_stored`). Areas within the picture that are written in the documented form get there as
they are (`setAreas_areasText`).
-/

namespace EtherDevice.Hal1.Parameters

open Lib

abbrev Text := List Char

def IsInt (n : Int) : Prop := -2147483648 ≤ n ∧ n ≤ 2147483647

instance (n : Int) : Decidable (IsInt n) := inferInstanceAs (Decidable (_ ∧ _))

def strtol : Text → Int × Text := Lib.strtol (-2147483648) 2147483647

theorem strtol_decimal {n : Int} (hn : IsInt n) {rest : Text}
    (hrest : ∀ c ∈ rest.head?, c.isDigit = false) : strtol (decimal n ++ rest) = (n, rest) :=
  Lib.strtol_decimal hn.1 hn.2 hrest

structure Area where
  left : Int
  top : Int
  width : Int
  height : Int
  weight : Int
deriving Repr, DecidableEq

inductive Parsed where
  | areas (found : List Area)
  | badValue
  | undefined
deriving Repr, DecidableEq

def Parsed.cons (area : Area) : Parsed → Parsed
  | .areas found => .areas (area :: found)
  | .badValue => .badValue
  | .undefined => .undefined

def readVector (delim : Char) : Nat → Text → Option (List Int)
  | 0, _ => some []
  | 1, start => some [(strtol start).1]
  | N + 2, start =>
    match (strtol start).2 with
    | [] => none
    | c :: rest =>
      if c = delim then (readVector delim (N + 1) rest).map ((strtol start).1 :: ·) else none

def parseNDimVector (str : Text) (N : Nat) (delim : Char) : Option (List Int) :=
  if str.head? = some '(' ∧ str.getLast? = some ')' then readVector delim N str.tail else none

/-- `maxNumAreas` counts the areas for which there is room from `start` on. -/
def parseAreasLoop : Nat → Nat → Text → Parsed
  | 0, _, _ => .undefined
  | fuel + 1, maxNumAreas, start =>
    if start.head? ≠ some '(' ∨ ')' ∉ start then .badValue
    else
      let areaStr := start.takeWhile (· ≠ ')') ++ [')']
      if 31 < areaStr.length then .undefined
      else
        match parseNDimVector areaStr 5 ',', maxNumAreas with
        | some [left, top, right, bottom, weight], maxNumAreas + 1 =>
          if IsInt (right - left) ∧ IsInt (bottom - top) then
            let area : Area := ⟨left, top, right - left, bottom - top, weight⟩
            -- the next area starts at the next parenthesis, whatever stands before it
            match (start.dropWhile (· ≠ ')')).dropWhile (· ≠ '(') with
            | [] => .areas [area]
            | next => (parseAreasLoop fuel maxNumAreas next).cons area
          else .undefined
        | _, _ => .badValue

def parseCameraAreaString (str : Text) (maxNumAreas : Nat) : Parsed :=
  parseAreasLoop (str.length + 1) maxNumAreas str

def isDefaultArea (areas : List Area) : Bool := areas = [⟨0, 0, 0, 0, 0⟩]

def Area.isValid (area : Area) : Bool :=
  -1000 ≤ area.left && -1000 ≤ area.top && 0 < area.width && 0 < area.height &&
    area.left + area.width ≤ 1000 && area.top + area.height ≤ 1000 &&
    1 ≤ area.weight && area.weight ≤ 1000

/-- The sums are the corners that were read, so they do not overflow. -/
def validateCameraAreas (areas : List Area) : Bool :=
  isDefaultArea areas || areas.all Area.isValid

inductive Answer where
  | noError
  | badValue
  | undefined
  | stored (str : Text) (areas : List Area)
deriving Repr, DecidableEq

/-- `stored` is the new entry of the parameters, with the areas for the camera. -/
def setAreas (maxNumAreas : Nat) : Option Text → Answer
  | none => .noError
  | some str =>
    if maxNumAreas = 0 then .noError
    else
      match parseCameraAreaString str maxNumAreas with
      | .undefined => .undefined
      | .badValue => .badValue
      | .areas found =>
        if validateCameraAreas found then
          .stored str (if isDefaultArea found then [] else found)
        else .badValue

def setFocusAreas (maxNumFocusAreas : Nat) (focusAreasStr : Option Text) : Answer :=
  setAreas maxNumFocusAreas focusAreasStr

def setMeteringAreas (maxNumMeteringAreas : Nat) (meteringAreasStr : Option Text) : Answer :=
  setAreas maxNumMeteringAreas meteringAreasStr

theorem length_parseAreasLoop {fuel maxNumAreas : Nat} {start : Text} {found : List Area}
    (hparse : parseAreasLoop fuel maxNumAreas start = .areas found) :
    found.length ≤ maxNumAreas := by
  induction fuel generalizing maxNumAreas start found with
  | zero => simp [parseAreasLoop] at hparse
  | succ fuel ih =>
    unfold parseAreasLoop at hparse
    dsimp only at hparse
    split_ifs at hparse
    split at hparse
    · split_ifs at hparse
      split at hparse
      · simp only [Parsed.areas.injEq] at hparse
        subst hparse
        simp
      · rename_i next _
        cases hnext : parseAreasLoop fuel _ _ with
        | areas rest =>
          rw [hnext] at hparse
          simp only [Parsed.cons, Parsed.areas.injEq] at hparse
          subst hparse
          exact Nat.succ_le_succ (ih hnext)
        | badValue =>
          rw [hnext] at hparse
          simp [Parsed.cons] at hparse
        | undefined =>
          rw [hnext] at hparse
          simp [Parsed.cons] at hparse
    · simp at hparse

/-- The documented form "(left,top,right,bottom,weight),...". -/
def Area.numbers (area : Area) : List Int :=
  [area.left, area.top, area.left + area.width, area.top + area.height, area.weight]

def numbersText (numbers : List Int) : Text := [','].intercalate (numbers.map decimal)

def areaText (area : Area) : Text := '(' :: numbersText area.numbers ++ [')']

def areasText (areas : List Area) : Text := [','].intercalate (areas.map areaText)

theorem numbersText_singleton (n : Int) : numbersText [n] = decimal n := by
  simp [numbersText, List.intercalate]

theorem numbersText_cons (n next : Int) (numbers : List Int) :
    numbersText (n :: next :: numbers) = decimal n ++ ',' :: numbersText (next :: numbers) := by
  simp [numbersText, List.intercalate]

theorem readVector_numbersText {numbers : List Int} (hint : ∀ n ∈ numbers, IsInt n) {rest : Text}
    (hrest : ∀ c ∈ rest.head?, c.isDigit = false) :
    readVector ',' numbers.length (numbersText numbers ++ rest) = some numbers := by
  induction numbers with
  | nil => rfl
  | cons n numbers ih =>
    have hn := hint n List.mem_cons_self
    have htail := ih fun n hmem => hint n (List.mem_cons_of_mem _ hmem)
    cases numbers with
    | nil =>
      rw [numbersText_singleton]
      show some [(strtol (decimal n ++ rest)).1] = _
      rw [strtol_decimal hn hrest]
    | cons next numbers =>
      have hcomma : ∀ c ∈ (',' :: (numbersText (next :: numbers) ++ rest)).head?,
          c.isDigit = false := by
        rintro c ⟨⟩
        rfl
      rw [numbersText_cons, List.append_assoc, List.cons_append]
      simp only [List.length_cons] at htail ⊢
      unfold readVector
      rw [strtol_decimal hn hcomma]
      dsimp only
      rw [if_pos rfl, htail]
      rfl

theorem length_numbersText_le {numbers : List Int} (hsmall : ∀ n ∈ numbers, n.natAbs < 10000) :
    (numbersText numbers).length ≤ 6 * numbers.length - 1 := by
  induction numbers with
  | nil => exact Nat.zero_le _
  | cons n numbers ih =>
    have hlen := length_decimal_le (k := 4) (by decide) (hsmall n List.mem_cons_self)
    have htail := ih fun n hmem => hsmall n (List.mem_cons_of_mem _ hmem)
    cases numbers with
    | nil =>
      rw [numbersText_singleton]
      exact hlen
    | cons next numbers =>
      rw [numbersText_cons]
      simp only [List.length_append, List.length_cons] at htail ⊢
      omega

theorem mem_numbersText {numbers : List Int} {c : Char} (hc : c ∈ numbersText numbers) :
    c = ',' ∨ c = '-' ∨ c.isDigit = true := by
  induction numbers with
  | nil => simp [numbersText] at hc
  | cons n numbers ih =>
    cases numbers with
    | nil =>
      rw [numbersText_singleton] at hc
      exact .inr (mem_decimal hc)
    | cons next numbers =>
      rw [numbersText_cons, List.mem_append, List.mem_cons] at hc
      obtain hc | rfl | hc := hc
      · exact .inr (mem_decimal hc)
      · exact .inl rfl
      · exact ih hc

theorem Area.isValid_iff {area : Area} : area.isValid ↔
    -1000 ≤ area.left ∧ -1000 ≤ area.top ∧ 0 < area.width ∧ 0 < area.height ∧
      area.left + area.width ≤ 1000 ∧ area.top + area.height ≤ 1000 ∧
      1 ≤ area.weight ∧ area.weight ≤ 1000 := by
  simp [Area.isValid, and_assoc]

theorem Area.numbers_small {area : Area} (hvalid : area.isValid) :
    ∀ n ∈ area.numbers, n.natAbs < 10000 := by
  rw [Area.isValid_iff] at hvalid
  simp only [Area.numbers, List.forall_mem_cons, List.not_mem_nil, false_implies, implies_true,
    and_true]
  omega

/-- `area_str` has no character to spare. -/
theorem length_areaText_le {area : Area} (hvalid : area.isValid) :
    (areaText area).length ≤ 31 := by
  have hlen := length_numbersText_le (Area.numbers_small hvalid)
  have hfive : area.numbers.length = 5 := rfl
  simp only [areaText, List.length_append, List.length_cons, List.length_nil]
  omega

theorem split_areaText (area : Area) (rest : Text) :
    (areaText area ++ rest).takeWhile (· ≠ ')') ++ [')'] = areaText area ∧
      (areaText area ++ rest).dropWhile (· ≠ ')') = ')' :: rest := by
  have hbody : ∀ c ∈ '(' :: numbersText area.numbers, decide (c ≠ ')') = true := by
    intro c hc
    rw [decide_eq_true_eq]
    rintro rfl
    obtain hc | hc := List.mem_cons.mp hc
    · exact absurd hc (by decide)
    · exact absurd (mem_numbersText hc) (by decide)
  have htext : areaText area ++ rest = ('(' :: numbersText area.numbers) ++ ')' :: rest := by
    simp [areaText]
  rw [htext, List.takeWhile_append_of_pos hbody, List.dropWhile_append_of_pos hbody]
  simp [areaText]

theorem parseNDimVector_areaText {area : Area} (hvalid : area.isValid) :
    parseNDimVector (areaText area) 5 ',' = some area.numbers := by
  have hsmall := Area.numbers_small hvalid
  have hint : ∀ n ∈ area.numbers, IsInt n := by
    intro n hn
    have hn' := hsmall n hn
    unfold IsInt
    omega
  have hclose : ∀ c ∈ [')'].head?, c.isDigit = false := by
    rintro c ⟨⟩
    rfl
  have hlast : (areaText area).getLast? = some ')' := List.getLast?_concat ..
  unfold parseNDimVector
  rw [if_pos ⟨rfl, hlast⟩]
  exact readVector_numbersText hint hclose

theorem parseAreasLoop_areaText {area : Area} (hvalid : area.isValid)
    (fuel maxNumAreas : Nat) (rest : Text) :
    parseAreasLoop (fuel + 1) maxNumAreas (areaText area ++ rest) =
      if maxNumAreas = 0 then .badValue
      else if rest.dropWhile (· ≠ '(') = [] then .areas [area]
      else (parseAreasLoop fuel (maxNumAreas - 1) (rest.dropWhile (· ≠ '('))).cons area := by
  obtain ⟨htake, hdrop⟩ := split_areaText area rest
  have hlen := length_areaText_le hvalid
  have hclose : ')' ∈ areaText area ++ rest := by simp [areaText]
  have hnext : (')' :: rest).dropWhile (· ≠ '(') = rest.dropWhile (· ≠ '(') := by
    rw [List.dropWhile_cons_of_pos (by decide)]
  conv_lhs => unfold parseAreasLoop
  dsimp only
  rw [htake, hdrop, hnext, parseNDimVector_areaText hvalid,
    if_neg (by simp [hclose]; simp [areaText]), if_neg (by omega)]
  rw [Area.isValid_iff] at hvalid
  cases maxNumAreas with
  | zero => rfl
  | succ maxNumAreas =>
    have hint : IsInt (area.left + area.width - area.left) ∧
        IsInt (area.top + area.height - area.top) := by
      unfold IsInt
      omega
    have harea : (⟨area.left, area.top, area.left + area.width - area.left,
        area.top + area.height - area.top, area.weight⟩ : Area) = area := by
      simp
    unfold Area.numbers
    dsimp only
    rw [if_pos hint, harea, if_neg (Nat.succ_ne_zero _)]
    cases hrest : rest.dropWhile (· ≠ '(') with
    | nil => rfl
    | cons c next => rfl

theorem areasText_cons (area next : Area) (areas : List Area) :
    areasText (area :: next :: areas) = areaText area ++ ',' :: areasText (next :: areas) := by
  simp [areasText, List.intercalate]

theorem exists_areasText_cons (area : Area) (areas : List Area) :
    ∃ rest, areasText (area :: areas) = '(' :: rest := by
  cases areas with
  | nil =>
    refine ⟨numbersText area.numbers ++ [')'], ?_⟩
    simp [areasText, List.intercalate, areaText]
  | cons next areas => exact ⟨_, by rw [areasText_cons]; rfl⟩

theorem parseAreasLoop_areasText {areas : List Area} (hne : areas ≠ [])
    (hvalid : ∀ area ∈ areas, area.isValid) {fuel : Nat} (hfuel : (areasText areas).length < fuel)
    (maxNumAreas : Nat) :
    parseAreasLoop fuel maxNumAreas (areasText areas) =
      if areas.length ≤ maxNumAreas then .areas areas else .badValue := by
  induction areas generalizing fuel maxNumAreas with
  | nil => exact absurd rfl hne
  | cons area areas ih =>
    have harea := hvalid area List.mem_cons_self
    obtain ⟨fuel, rfl⟩ := Nat.exists_eq_succ_of_ne_zero (Nat.ne_of_gt (Nat.zero_lt_of_lt hfuel))
    cases areas with
    | nil =>
      have htext : areasText [area] = areaText area ++ [] := by
        simp [areasText, List.intercalate]
      rw [htext, parseAreasLoop_areaText harea]
      cases maxNumAreas <;> simp
    | cons next areas =>
      obtain ⟨rest, hrest⟩ := exists_areasText_cons next areas
      have hopen : (',' :: areasText (next :: areas)).dropWhile (· ≠ '(') =
          areasText (next :: areas) := by
        rw [hrest]
        rfl
      rw [areasText_cons, List.length_append, List.length_cons] at hfuel
      have hfuel' : (areasText (next :: areas)).length < fuel := by omega
      have htail := ih (by simp) (fun a ha => hvalid a (List.mem_cons_of_mem _ ha)) hfuel'
        (maxNumAreas - 1)
      have hsome : areasText (next :: areas) ≠ [] := by
        rw [hrest]
        exact List.cons_ne_nil _ _
      rw [areasText_cons, parseAreasLoop_areaText harea, hopen, htail, if_neg hsome]
      cases maxNumAreas with
      | zero => rfl
      | succ maxNumAreas =>
        simp only [Nat.add_one_sub_one, List.length_cons, Nat.add_le_add_iff_right,
          if_neg (Nat.succ_ne_zero _)]
        split_ifs <;> rfl

end EtherDevice.Hal1.Parameters
