import Mathlib

/-!
# Configuration files

`loc_read_conf_r` and `loc_update_conf` count down a budget by the entries that each line sets and
stop when it is used up. Lines that set an entry again use it up too, and the budget of
`loc_update_conf` is one short, so that lines may be left unread.
-/

namespace EtherDevice.GpsUtils.Config

/-- The conversions of the C library. -/
structure Libc (D : Type) where
  atoi : List Char → Int
  strtol16 : List Char → Int
  atof : List Char → D
  zero : D

inductive Value (D : Type)
  | string (s : List Char)
  | number (n : Int)
  | float (d : D)
deriving DecidableEq

/-- `loc_param_s_type`. The pointers to the value and to the flag may be missing. -/
structure Param (D : Type) where
  param_name : List Char
  param_type : Char
  param_ptr : Option (Value D)
  param_set : Option Bool
deriving DecidableEq

structure ConfigValue (D : Type) where
  param_name : List Char
  param_str_value : List Char
  param_int_value : Int
  param_double_value : D

variable {D : Type} (libc : Libc D)

def isspace (c : Char) : Bool := c = ' ' || (9 ≤ c.toNat && c.toNat ≤ 13)

def trimSpace (s : List Char) : List Char :=
  if s.all isspace then s else ((s.dropWhile isspace).reverse.dropWhile isspace).reverse

def strtok (delimiter : Char) (s : List Char) : Option (List Char × List Char) :=
  let s := s.dropWhile (· = delimiter)
  if s = [] then none
  else some (s.takeWhile (· ≠ delimiter), (s.dropWhile (· ≠ delimiter)).tail)

def convert (param_type : Char) (v : ConfigValue D) : Option (Value D) :=
  match param_type with
  | 's' => some (.string (if v.param_str_value = "NULL".toList then []
      else v.param_str_value.take 80))
  | 'n' => some (.number v.param_int_value)
  | 'f' => some (.float v.param_double_value)
  | _ => none

def setConfigEntry (e : Param D) (v : ConfigValue D) : Bool × Param D :=
  if e.param_name = v.param_name ∧ e.param_ptr.isSome then
    match convert e.param_type v with
    | some value =>
      (true, { e with param_ptr := some value, param_set := e.param_set.map fun _ => true })
    | none => (false, e)
  else (false, e)

def parse (line : List Char) : Option (ConfigValue D) := do
  let (name, rest) ← strtok '=' line
  let (value, _) ← strtok '=' rest
  let value := trimSpace value
  if 3 ≤ value.length ∧ value.take 1 = ['0'] ∧ (value.drop 1).take 1 ∈ [['x'], ['X']] then
    pure ⟨trimSpace name, value, libc.strtol16 (value.drop 2), libc.zero⟩
  else pure ⟨trimSpace name, value, libc.atoi value, libc.atof value⟩

def fillConfItem (line : List Char) (table : List (Param D)) : Nat × List (Param D) :=
  match parse libc line with
  | none => (0, table)
  | some v =>
    (table.countP fun e => (setConfigEntry e v).1, table.map fun e => (setConfigEntry e v).2)

def readLoop : List (List Char) → Nat → List (Param D) → Nat × List (Param D)
  | [], _, table => (0, table)
  | line :: lines, num_params, table =>
    if num_params = 0 then (0, table)
    else
      let r := fillConfItem libc line table
      let t := readLoop lines ((num_params + 2 ^ 32 - r.1) % 2 ^ 32) r.2
      (t.1 + 1, t.2)

def clear (e : Param D) : Param D := { e with param_set := e.param_set.map fun _ => false }

/-- `loc_read_conf_r`, with the lines that `fgets` gives. -/
def locReadConfR (lines : List (List Char)) (table : List (Param D)) : List (Param D) :=
  (readLoop libc lines table.length (table.map clear)).2

def textLines (conf_data : List Char) : List (List Char) :=
  (conf_data.splitOn '\n').filter (· ≠ [])

/-- `loc_update_conf`, with the number of lines that it returns. -/
def locUpdateConf (conf_data : List Char) (table : List (Param D)) : Int × List (Param D) :=
  if conf_data = [] ∨ table = [] then (-1, table)
  else
    let r := readLoop libc (textLines conf_data) (table.length - 1) table
    (r.1, r.2)

def lastFor (e : Param D) (lines : List (List Char)) : Option (ConfigValue D) :=
  ((lines.filterMap (parse libc)).filter fun v => (setConfigEntry e v).1).getLast?

/-- An entry after it is set from the last line that has it. -/
def assigned (e : Param D) (lines : List (List Char)) : Param D :=
  (lastFor libc e lines).elim e fun v => (setConfigEntry e v).2

def hits (table : List (Param D)) (line : List Char) : Bool :=
  (parse libc line).any fun v => table.any fun e => (setConfigEntry e v).1

/-- The lines up to the one with which `num_params` lines have set an entry, and the others. -/
def scan (table : List (Param D)) : Nat → List (List Char) → List (List Char) × List (List Char)
  | _, [] => ([], [])
  | 0, lines => ([], lines)
  | n + 1, line :: lines =>
    let r := scan table (if hits libc table line then n else n + 1) lines
    (line :: r.1, r.2)

/-- An entry that is set by one of the lines `r.2` has from the lines `r.1` what the last of these
sets. -/
def NothingNew (table : List (Param D)) (r : List (List Char) × List (List Char)) : Prop :=
  ∀ e ∈ table, ∀ v, lastFor libc e r.2 = some v → assigned libc e r.1 = (setConfigEntry e v).2

variable {libc} {e : Param D} {v w : ConfigValue D} {table : List (Param D)}
  {xs ys lines : List (List Char)} {line : List Char}

theorem setConfigEntry_cases (e : Param D) (v : ConfigValue D) :
    setConfigEntry e v = (false, e) ∨
      e.param_name = v.param_name ∧ e.param_ptr.isSome ∧
        ∃ value, convert e.param_type v = some value ∧
        setConfigEntry e v = (true, { e with
          param_ptr := some value
          param_set := e.param_set.map fun _ => true }) := by
  unfold setConfigEntry
  split_ifs with h
  · cases hvalue : convert e.param_type v with
    | none => exact .inl rfl
    | some value => exact .inr ⟨h.1, h.2, value, rfl, rfl⟩
  · exact .inl rfl

theorem setConfigEntry_false (h : (setConfigEntry e v).1 = false) : (setConfigEntry e v).2 = e := by
  obtain hsame | ⟨-, -, value, -, hset⟩ := setConfigEntry_cases e v
  · rw [hsame]
  · rw [hset] at h
    exact absurd h Bool.true_eq_false.mp

theorem setConfigEntry_twice (e : Param D) (v w : ConfigValue D) :
    (setConfigEntry (setConfigEntry e v).2 w).1 = (setConfigEntry e w).1 ∧
      ((setConfigEntry e w).1 = true →
        (setConfigEntry (setConfigEntry e v).2 w).2 = (setConfigEntry e w).2) := by
  obtain hsame | ⟨-, hptr, value, -, hset⟩ := setConfigEntry_cases e v
  · rw [hsame]
    exact ⟨rfl, fun _ => rfl⟩
  · rw [hset]
    unfold setConfigEntry
    simp only [hptr, Option.isSome_some, and_true]
    split_ifs with hname
    · cases convert e.param_type w <;> simp
    · exact ⟨rfl, nofun⟩

theorem lastFor_append :
    lastFor libc e (xs ++ ys) = (lastFor libc e ys).or (lastFor libc e xs) := by
  simp [lastFor, List.getLast?_append]

theorem assigned_append : assigned libc e (xs ++ ys) =
    (lastFor libc e ys).elim (assigned libc e xs) fun v => (setConfigEntry e v).2 := by
  unfold assigned
  rw [lastFor_append]
  cases lastFor libc e ys <;> rfl

theorem lastFor_set (e : Param D) (v : ConfigValue D) :
    lastFor libc (setConfigEntry e v).2 lines = lastFor libc e lines := by
  unfold lastFor
  simp only [(setConfigEntry_twice e v _).1]

theorem assigned_cons (hline : parse libc line = some v) :
    assigned libc (setConfigEntry e v).2 lines = assigned libc e (line :: lines) := by
  rw [← List.singleton_append, assigned_append, assigned, lastFor_set]
  cases hlast : lastFor libc e lines with
  | none =>
    cases hset : (setConfigEntry e v).1 with
    | true => simp [assigned, lastFor, hline, hset]
    | false => simp [assigned, lastFor, hline, hset, setConfigEntry_false hset]
  | some w =>
    have hw : (setConfigEntry e w).1 = true := by
      have hmem := List.mem_of_getLast? hlast
      exact (List.mem_filter.mp hmem).2
    exact (setConfigEntry_twice e v w).2 hw

theorem assigned_cons_none (hline : parse libc line = none) :
    assigned libc e (line :: lines) = assigned libc e lines := by
  simp [assigned, lastFor, hline]

theorem setConfigEntry_name (e : Param D) (v : ConfigValue D) :
    (setConfigEntry e v).2.param_name = e.param_name ∧
      ((setConfigEntry e v).1 = true → e.param_name = v.param_name) := by
  obtain hsame | ⟨hname, -, value, -, hset⟩ := setConfigEntry_cases e v
  · rw [hsame]
    exact ⟨rfl, nofun⟩
  · rw [hset]
    exact ⟨rfl, fun _ => hname⟩

theorem countP_eq (hnodup : (table.map Param.param_name).Nodup) (v : ConfigValue D) :
    (table.countP fun e => (setConfigEntry e v).1) =
      if table.any fun e => (setConfigEntry e v).1 then 1 else 0 := by
  induction table with
  | nil => rfl
  | cons e table ih =>
    obtain ⟨hnot, hnodup⟩ := List.nodup_cons.mp hnodup
    rw [List.countP_cons, List.any_cons, ih hnodup]
    cases hset : (setConfigEntry e v).1 with
    | false => simp
    | true =>
      have hothers : (table.any fun e => (setConfigEntry e v).1) = false := by
        refine List.any_eq_false.mpr fun f hf hsetf => hnot ?_
        rw [(setConfigEntry_name e v).2 hset, ← (setConfigEntry_name f v).2 hsetf]
        exact List.mem_map_of_mem hf
      simp [hothers]

theorem hits_map {f : Param D → Param D}
    (hf : ∀ e w, (setConfigEntry (f e) w).1 = (setConfigEntry e w).1)
    (line : List Char) : hits libc (table.map f) line = hits libc table line := by
  simp [hits, List.any_map, Function.comp_def, hf]

theorem scan_congr {table' : List (Param D)}
    (h : ∀ line, hits libc table' line = hits libc table line)
    (num_params : Nat) : scan libc table' num_params lines = scan libc table num_params lines := by
  induction lines generalizing num_params with
  | nil => rfl
  | cons line lines ih =>
    cases num_params with
    | zero => rfl
    | succ n => simp only [scan, h, ih]

theorem readLoop_eq (hnodup : (table.map Param.param_name).Nodup) {num_params : Nat}
    (hnum : num_params < 2 ^ 32) :
    (readLoop libc lines num_params table).2 =
      table.map fun e => assigned libc e (scan libc table num_params lines).1 := by
  induction lines generalizing num_params table with
  | nil => exact (List.map_id _).symm
  | cons line lines ih =>
    cases num_params with
    | zero => exact (List.map_id _).symm
    | succ n =>
      rw [readLoop, if_neg n.succ_ne_zero, fillConfItem, scan]
      cases hline : parse libc line with
      | none =>
        have hmod : (n + 1 + 2 ^ 32 - 0) % 2 ^ 32 = n + 1 := by omega
        simp only [hmod, ih hnodup hnum, hits, hline, Option.any_none, Bool.false_eq_true, if_false,
          assigned_cons_none hline]
      | some v =>
        have hnodup' :
            ((table.map fun e => (setConfigEntry e v).2).map Param.param_name).Nodup := by
          rw [List.map_map]
          exact (List.map_congr_left fun e _ => (setConfigEntry_name e v).1) ▸ hnodup
        have hhits : ∀ line, hits libc (table.map fun e => (setConfigEntry e v).2) line =
            hits libc table line := hits_map fun e => (setConfigEntry_twice e v · |>.1)
        have hmod : (n + 1 + 2 ^ 32 - table.countP fun e => (setConfigEntry e v).1) % 2 ^ 32 =
            if hits libc table line then n else n + 1 := by
          rw [countP_eq hnodup, hits, hline, Option.any_some]
          split_ifs <;> omega
        have hlt : (if hits libc table line then n else n + 1) < 2 ^ 32 := by
          split_ifs <;> omega
        simp only [hmod, ih hnodup' hlt, scan_congr hhits, List.map_map]
        exact List.map_congr_left fun e _ => assigned_cons hline

theorem scan_append (num_params : Nat) :
    (scan libc table num_params lines).1 ++ (scan libc table num_params lines).2 = lines := by
  induction lines generalizing num_params with
  | nil => rfl
  | cons line lines ih =>
    cases num_params with
    | zero => rfl
    | succ n => exact congrArg (line :: ·) (ih _)

theorem readLoop_iff (hnodup : (table.map Param.param_name).Nodup) {num_params : Nat}
    (hnum : num_params < 2 ^ 32) :
    (readLoop libc lines num_params table).2 = table.map (fun e => assigned libc e lines) ↔
      NothingNew libc table (scan libc table num_params lines) := by
  rw [readLoop_eq hnodup hnum, List.map_inj_left]
  refine forall₂_congr fun e _ => ?_
  have hall := congrArg (assigned libc e) (@scan_append D libc table lines num_params)
  rw [← hall, assigned_append]
  cases lastFor libc e (scan libc table num_params lines).2 with
  | none => simp
  | some v => simp

/-- Every entry whose name some line has gets the value of its last line, and every other one stays
as it is, if and only if the lines that are not read bring nothing new. -/
theorem conf_iff {D : Type} (libc : Libc D) (table : List (Param D))
    (hnodup : (table.map Param.param_name).Nodup) (hlength : table.length < 2 ^ 32) :
    (∀ lines, locReadConfR libc lines table =
        (table.map clear).map (fun e => assigned libc e lines) ↔
      NothingNew libc (table.map clear) (scan libc (table.map clear) table.length lines)) ∧
    ∀ conf_data, (locUpdateConf libc conf_data table).2 =
        table.map (fun e => assigned libc e (textLines conf_data)) ↔
      NothingNew libc table (scan libc table (table.length - 1) (textLines conf_data)) := by
  refine ⟨fun lines => ?_, fun conf_data => ?_⟩
  · have hnodup' : ((table.map clear).map Param.param_name).Nodup := by rwa [List.map_map]
    exact readLoop_iff hnodup' hlength
  · rw [← readLoop_iff hnodup (by omega), locUpdateConf]
    split_ifs with hempty
    · obtain rfl | rfl := hempty
      · exact iff_of_true (List.map_id _).symm (List.map_id _).symm
      · exact iff_of_true rfl (by cases textLines conf_data <;> rfl)
    · rfl

def twoParams (d : Bool) : List (Param Unit) :=
  [⟨['A'], 'n', some (.number 0), some d⟩, ⟨['B'], 's', some (.string []), none⟩]

/-- A library whose numbers are their lengths. -/
def lengths : Libc Unit := ⟨fun s => s.length, fun s => s.length, fun _ => (), ()⟩

theorem conf_iff_two :
    (∀ lines, locReadConfR lengths lines (twoParams true) =
        ((twoParams true).map clear).map (fun e => assigned lengths e lines) ↔
      NothingNew lengths ((twoParams true).map clear)
        (scan lengths ((twoParams true).map clear) 2 lines)) ∧
    ∀ conf_data, (locUpdateConf lengths conf_data (twoParams true)).2 =
        (twoParams true).map (fun e => assigned lengths e (textLines conf_data)) ↔
      NothingNew lengths (twoParams true)
        (scan lengths (twoParams true) 1 (textLines conf_data)) :=
  conf_iff lengths (twoParams true) (by decide) (by decide)

/-- The second entry is left out by `loc_update_conf`, and by `loc_read_conf_r` where the first one
comes twice before it. -/
theorem not_conf : ¬ (∀ lines, locReadConfR lengths lines (twoParams true) =
      ((twoParams true).map clear).map fun e => assigned lengths e lines) ∧
    ¬ ∀ conf_data, (locUpdateConf lengths conf_data (twoParams true)).2 =
      (twoParams true).map fun e => assigned lengths e (textLines conf_data) := by
  refine ⟨fun h => ?_, fun h => ?_⟩
  · exact absurd (h ["A=1".toList, "A=1".toList, "B=2".toList]) (by decide +kernel)
  · exact absurd (h "A=1\nB=2".toList) (by decide +kernel)

end EtherDevice.GpsUtils.Config
