import QueryMapping.Proofs.Text.Blank
import QueryMapping.Proofs.Text.Fold
import QueryMapping.Vendor.Profile

/-! Names that are read without regard to case and to white space around them: those of vendors, and
those of the environment variables that give settings of a test run. -/

namespace QueryMapping

namespace Text

variable {as bs cs : List Char}

theorem sameFolded_iff :
    sameFolded as bs = true ↔ as.map Char.toLower = bs.map Char.toLower := beq_iff_eq

theorem sameFolded_comm (as bs : List Char) : sameFolded as bs = sameFolded bs as := by
  rw [Bool.eq_iff_iff, sameFolded_iff, sameFolded_iff]
  exact eq_comm

theorem sameFolded_congr (h : as.map Char.toLower = bs.map Char.toLower) (cs : List Char) :
    sameFolded as cs = sameFolded bs cs := by
  rw [sameFolded, h, sameFolded]

theorem sameFolded_append (as bs cs : List Char) :
    sameFolded (as ++ bs) cs =
      (sameFolded as (cs.take as.length) && sameFolded bs (cs.drop as.length)) := by
  rw [Bool.eq_iff_iff, Bool.and_eq_true, sameFolded_iff, sameFolded_iff, sameFolded_iff,
    List.map_append]
  constructor
  · intro h
    rw [List.map_take, List.map_drop, ← h]
    constructor <;> simp
  · rintro ⟨hstart, hrest⟩
    rw [hstart, hrest, ← List.map_append, List.take_append_drop]

theorem isBlank_or_mem_trim {c : Char} (h : c ∈ cs) : isBlank c = true ∨ c ∈ trim cs := by
  rw [← List.takeWhile_append_dropWhile (p := isBlank) (l := cs)] at h
  rcases List.mem_append.1 h with h | h
  · exact .inl (List.mem_takeWhile_imp h)
  · rw [← List.mem_reverse,
      ← List.takeWhile_append_dropWhile (p := isBlank) (l := (cs.dropWhile isBlank).reverse)] at h
    rcases List.mem_append.1 h with h | h
    · exact .inl (List.mem_takeWhile_imp h)
    · exact .inr (List.mem_reverse.2 h)

end Text

namespace Vendor

variable {v w : Vendor} {text : String}

theorem eq_of_sameFolded (h : Text.sameFolded v.name.toList w.name.toList = true) : v = w := by
  revert h
  cases v <;> cases w <;> decide

theorem parse?_eq_some_iff :
    parse? text = some v ↔ Text.sameFolded v.name.toList (Text.trim text.toList) = true := by
  have hnamed (u : Vendor) (h : parse? text = some u) :
      Text.sameFolded u.name.toList (Text.trim text.toList) = true :=
    List.find?_some (p := fun v : Vendor => Text.sameFolded v.name.toList (Text.trim text.toList)) h
  refine ⟨hnamed v, fun h => ?_⟩
  have hmem : v ∈ all := by cases v <;> decide
  obtain ⟨w, hw⟩ : ∃ w, parse? text = some w :=
    Option.isSome_iff_exists.1 (List.find?_isSome.2 ⟨v, hmem, h⟩)
  have hfound := hnamed w hw
  rw [Text.sameFolded_iff] at h hfound
  obtain rfl : w = v := eq_of_sameFolded (Text.sameFolded_iff.2 (hfound.trans h.symm))
  exact hw

theorem exists_cons_of_sameFolded {cs : List Char} (h : Text.sameFolded v.name.toList cs = true) :
    (∀ c ∈ cs, c.isAlphanum = true) ∧ ∃ c rest, cs = c :: rest ∧ c.isAlpha = true ∧ c ≠ 't' ∧
    c ≠ 'f' := by
  rw [Text.sameFolded_iff] at h
  have hall : ∀ d ∈ v.name.toList.map Char.toLower, d.isAlphanum = true :=
    List.all_eq_true.1 (by cases v <;> rfl)
  have hhead : ∃ d rest, v.name.toList.map Char.toLower = d :: rest ∧ d.isAlpha = true ∧ d ≠ 't' ∧
      d ≠ 'f' := by
    cases v <;> exact ⟨_, _, rfl, by decide, by decide, by decide⟩
  obtain ⟨d, rest, hname, halpha, htrue, hfalse⟩ := hhead
  rw [h] at hall hname
  refine ⟨fun c hc => Text.isAlphanum_of_toLower (hall _ (List.mem_map_of_mem hc)), ?_⟩
  obtain ⟨c, cs, rfl, rfl, rfl⟩ := List.map_eq_cons_iff.1 hname
  refine ⟨c, cs, rfl, Text.isAlpha_of_toLower halpha, ?_, ?_⟩
  · rintro rfl
    exact htrue rfl
  · rintro rfl
    exact hfalse rfl

end Vendor

namespace TestSettings

variable {vars : List (String × String)}

def activeVariable : String := "ROWKIT_PROFILES_ACTIVE"

def dirVariable : String := "ROWKIT_SCRIPTS_DIR"

def isNamed (name given : String) : Bool := Text.sameFolded name.toList (Text.trim given.toList)

theorem pathOfVariable?_eq (given : String) :
    pathOfVariable? given =
      if isNamed activeVariable given then some ("profiles", "active")
      else if isNamed dirVariable given then some ("scripts", "dir")
      else none := by
  have hactive : activeVariable.toList.map Char.toLower =
      (variableStart.toList ++ "profiles_active".toList).map Char.toLower := by decide
  have hdir : dirVariable.toList.map Char.toLower =
      (variableStart.toList ++ "scripts_dir".toList).map Char.toLower := by decide
  unfold pathOfVariable?
  simp only [isNamed, Text.sameFolded_congr hactive, Text.sameFolded_congr hdir,
    Text.sameFolded_append, variablePaths, List.find?_cons, List.find?_nil]
  rw [Text.sameFolded_comm]
  generalize Text.sameFolded variableStart.toList
    ((Text.trim given.toList).take variableStart.toList.length) = start
  generalize (Text.trim given.toList).drop variableStart.toList.length = rest
  cases start with
  | false => rfl
  | true =>
    rw [Bool.true_and, Bool.true_and]
    cases hactive : Text.sameFolded "profiles_active".toList rest with
    | true => rfl
    | false => cases hdir : Text.sameFolded "scripts_dir".toList rest <;> rfl

theorem isNamed_dir_of_active {given : String} (h : isNamed activeVariable given = true) :
    isNamed dirVariable given = false := by
  rw [isNamed, Text.sameFolded_iff] at h
  rw [isNamed, Text.sameFolded, ← h]
  decide

def setting? (name : String) (vars : List (String × String)) : Option String :=
  ((vars.filter fun setting => isNamed name setting.1).getLast?).map Prod.snd

theorem setting?_cons_of_named {name : String} {setting : String × String}
    (h : isNamed name setting.1 = true) :
    setting? name (setting :: vars) = some ((setting? name vars).getD setting.2) := by
  have hfilter : (setting :: vars).filter (fun setting => isNamed name setting.1) =
      setting :: vars.filter fun setting => isNamed name setting.1 := List.filter_cons_of_pos h
  rw [setting?, hfilter, List.getLast?_cons, Option.map_some, setting?]
  cases (vars.filter fun setting => isNamed name setting.1).getLast? <;> rfl

theorem setting?_cons_of_not_named {name : String} {setting : String × String}
    (h : isNamed name setting.1 = false) :
    setting? name (setting :: vars) = setting? name vars := by
  rw [setting?, List.filter_cons_of_neg (by simp [h]), setting?]

theorem layered_cons (root : Node) (setting : String × String) (vars : List (String × String)) :
    layered root (setting :: vars) =
      layered
        (if isNamed activeVariable setting.1 then
          overlay root ("profiles", "active") (Settings.ofText setting.2)
        else if isNamed dirVariable setting.1 then
          overlay root ("scripts", "dir") (Settings.ofText setting.2)
        else root) vars := by
  rw [layered, List.foldl_cons, pathOfVariable?_eq]
  cases isNamed activeVariable setting.1 <;> cases isNamed dirVariable setting.1 <;> rfl

/-- Variables of other names change nothing. -/
theorem layered_filter (file : Node) (vars : List (String × String)) :
    layered file
      (vars.filter fun setting =>
        isNamed activeVariable setting.1 || isNamed dirVariable setting.1) =
      layered file vars := by
  rw [layered, List.foldl_filter, layered]
  refine congrArg₂ (fun step root => List.foldl step root vars)
    (funext fun root => funext fun setting => ?_) rfl
  rw [pathOfVariable?_eq]
  cases isNamed activeVariable setting.1 <;> cases isNamed dirVariable setting.1 <;> rfl

end TestSettings

end QueryMapping
