import QueryMapping.Proofs.Failure
import QueryMapping.Proofs.Sql.Parameter
import QueryMapping.Proofs.Sql.Split

/-! No scan ends in a fault. The readers stop behind the position where they open and within the
bytes, each round of a loop goes on and not past the end, and text is cut between characters
only. -/

namespace QueryMapping.Sql

open Text (Fault IsPiece byte bytes)

/-! ### The readers -/

section Readers

variable {bytes : Array UInt8} {start : Nat}

def Stops (bytes : Array UInt8) (start : Nat) (reader : Except Fault Nat) : Prop :=
  ∃ stop, reader = .ok stop ∧ start < stop ∧ stop ≤ bytes.size

theorem stops_pastQuoted (h : start < bytes.size) : Stops bytes start (pastQuoted bytes start) := by
  have hstop : pastQuoted bytes start = .ok (closingQuote bytes bytes[start] (start + 1)) := by
    rw [pastQuoted, Text.readByte, Array.getElem?_eq_getElem h]
    rfl
  exact ⟨_, hstop, pastQuoted_bounds hstop⟩

theorem stops_pastLineComment (hdash : bytes[start]? = some (byte '-')) :
    Stops bytes start (pastLineComment bytes start) := by
  have hlt : start < bytes.size := (Array.getElem?_eq_some_iff.1 hdash).1
  have hstop : pastLineComment bytes start = .ok (Text.searchByte (· == byte '\n') bytes start) :=
    if_pos (Nat.le_of_lt hlt)
  exact ⟨_, hstop, pastLineComment_bounds hdash hstop⟩

theorem stops_pastBlockComment (hstar : bytes[start + 1]? = some (byte '*')) :
    Stops bytes start (pastBlockComment bytes start) := by
  have hbody : start + 2 ≤ bytes.size := (Array.getElem?_eq_some_iff.1 hstar).1
  have hstop : pastBlockComment bytes start =
      .ok (Text.searchWord #[byte '*', byte '/'] bytes (start + 2)) := by
    rw [pastBlockComment, Text.findWord, if_pos hbody]
    rfl
  exact ⟨_, hstop, pastBlockComment_bounds hstop⟩

theorem exists_pastDollarBody (h : start < bytes.size) :
    ∃ found, pastDollarBody bytes start = .ok found := by
  obtain ⟨close, hclose⟩ : ∃ close,
      Text.findByte (fun b => !Text.isNameByte b) bytes (start + 1) = .ok close := ⟨_, if_pos h⟩
  have hle : start + 1 ≤ close := (Text.findByte_bounds hclose).1
  unfold pastDollarBody
  rw [hclose]
  split
  · change ∃ found, (if bytes[close]? = some (byte '$') then _ else _) = _
    split
    · next hsign =>
      have hlt : close < bytes.size := (Array.getElem?_eq_some_iff.1 hsign).1
      have hslice : Text.slice bytes start (close + 1) = .ok (bytes.extract start (close + 1)) :=
        if_pos ⟨by omega, hlt⟩
      -- The tag has its two dollar signs at least, so there is something to look for.
      have hsize : (bytes.extract start (close + 1)).size ≠ 0 := by
        rw [Array.size_extract]
        omega
      have hstop : Text.findWord (bytes.extract start (close + 1)) bytes (close + 1) =
          .ok (Text.searchWord (bytes.extract start (close + 1)) bytes (close + 1)) := by
        rw [Text.findWord, if_pos (Nat.succ_le_of_lt hlt), if_neg hsize]
      rw [hslice]
      change ∃ found, (Text.findWord _ _ _ >>= _) = .ok found
      rw [hstop]
      exact ⟨_, rfl⟩
    · exact ⟨none, rfl⟩
  · exact ⟨none, rfl⟩

/-- Whatever the bytes are, each reader stops if it opens at `start`. A dollar sign need not open a
body. -/
structure StopsAtOpeners (bytes : Array UInt8) (start : Nat) : Prop where
  quoted : ∀ quote, bytes[start]? = some quote → isQuoteByte quote = true →
    Stops bytes start (pastQuoted bytes start)
  lineComment : bytes[start]? = some (byte '-') → bytes[start + 1]? = some (byte '-') →
    Stops bytes start (pastLineComment bytes start)
  blockComment : bytes[start]? = some (byte '/') → bytes[start + 1]? = some (byte '*') →
    Stops bytes start (pastBlockComment bytes start)
  dollarBody : bytes[start]? = some (byte '$') → pastDollarBody bytes start = .ok none ∨
    ∃ stop, pastDollarBody bytes start = .ok (some stop) ∧ start < stop ∧ stop ≤ bytes.size

theorem stopsAtOpeners (bytes : Array UInt8) (start : Nat) : StopsAtOpeners bytes start where
  quoted quote hquote _ := stops_pastQuoted (Array.getElem?_eq_some_iff.1 hquote).1
  lineComment hdash _ := stops_pastLineComment hdash
  blockComment _ hstar := stops_pastBlockComment hstar
  dollarBody hsign := by
    obtain ⟨found, hfound⟩ := exists_pastDollarBody (Array.getElem?_eq_some_iff.1 hsign).1
    cases found with
    | none => exact .inl hfound
    | some stop => exact .inr ⟨stop, hfound, pastDollarBody_bounds hfound⟩

end Readers

/-! ### Rounds of a loop -/

structure Place where
  start : Nat
  i : Nat
deriving DecidableEq, Repr

/-- One round of a loop: the stretches of text that it cuts out, and the place where it goes on. -/
structure Round where
  cuts : List (Nat × Nat)
  next : Place
deriving DecidableEq, Repr

structure Loop where
  round (bytes : Array UInt8) (p : Place) : p.i < bytes.size → Except Fault Round
  last (bytes : Array UInt8) (p : Place) : List (Nat × Nat)

namespace Loop

inductive Arrives (l : Loop) (bytes : Array UInt8) : Nat → Place → Prop
  | start : Arrives l bytes 0 ⟨0, 0⟩
  | next {n : Nat} {p : Place} {r : Round} (hp : Arrives l bytes n p) (h : p.i < bytes.size)
      (hr : l.round bytes p h = .ok r) : Arrives l bytes (n + 1) r.next

def ArePieces (text : String) (cuts : List (Nat × Nat)) : Prop :=
  ∀ cut ∈ cuts, IsPiece text cut.1 cut.2

/-- The loop is that of a scan, and `Ends p` says that the scan ends without a fault if it goes on
at `p`. That is so exactly if the round there ends without a fault, its stretches can be cut out,
and the scan ends without a fault if it goes on at the next place. -/
structure Describes (l : Loop) (text : String) (Ends : Place → Prop) : Prop where
  round : ∀ p h, Ends p ↔
    ∃ r, l.round (bytes text) p h = .ok r ∧ ArePieces text r.cuts ∧ Ends r.next
  last : ∀ p, ¬ p.i < (bytes text).size → (Ends p ↔ ArePieces text (l.last (bytes text) p))

/-- Wherever the loop comes to, the round there ends without a fault, splits no character, and goes
on but not past the end. So the loop comes to the end, after no more rounds than there are bytes. -/
structure Faultless (l : Loop) (text : String) : Prop where
  round : ∀ n p, l.Arrives (bytes text) n p → ∀ h, ∃ r, l.round (bytes text) p h = .ok r ∧
    ArePieces text r.cuts ∧ p.i < r.next.i ∧ r.next.i ≤ (bytes text).size
  last : ∀ n p, l.Arrives (bytes text) n p → p.i = (bytes text).size →
    ArePieces text (l.last (bytes text) p)
  rounds_le : ∀ n p, l.Arrives (bytes text) n p → n ≤ p.i ∧ p.i ≤ (bytes text).size
  exists_end : ∃ n p, l.Arrives (bytes text) n p ∧ p.i = (bytes text).size

def GoesOn (l : Loop) : Prop := ∀ bytes p h r, l.round bytes p h = .ok r →
  p.i < r.next.i ∧ r.next.i ≤ bytes.size

variable {l : Loop} {text : String} {Ends : Place → Prop} {n : Nat} {p : Place}

theorem arePieces_nil (text : String) : ArePieces text [] := List.forall_mem_nil _

theorem arePieces_singleton {start stop : Nat} :
    ArePieces text [(start, stop)] ↔ ∃ piece, Text.cut text start stop = .ok piece := by
  rw [ArePieces, List.forall_mem_singleton, Text.exists_cut_eq_ok_iff]

theorem arePieces_append {as bs : List (Nat × Nat)} :
    ArePieces text (as ++ bs) ↔ ArePieces text as ∧ ArePieces text bs := List.forall_mem_append

theorem GoesOn.arrives_le {bytes : Array UInt8} (hl : l.GoesOn) (h : l.Arrives bytes n p) :
    n ≤ p.i ∧ p.i ≤ bytes.size := by
  induction h with
  | start => exact ⟨Nat.le_refl 0, Nat.zero_le _⟩
  | next _ hlt hr ih =>
    have hnext := hl _ _ hlt _ hr
    omega

theorem Describes.ends_of_arrives (hl : l.Describes text Ends) (hstart : Ends ⟨0, 0⟩)
    (h : l.Arrives (bytes text) n p) : Ends p := by
  induction h with
  | start => exact hstart
  | next _ hlt hr ih =>
    obtain ⟨r, hr', -, hends⟩ := (hl.round _ hlt).1 ih
    rwa [Except.ok.inj (hr.symm.trans hr')]

theorem Describes.exists_round (hl : l.Describes text Ends) (hon : l.GoesOn) (hstart : Ends ⟨0, 0⟩)
    (h : l.Arrives (bytes text) n p) (hlt : p.i < (bytes text).size) :
    ∃ r, l.round (bytes text) p hlt = .ok r ∧ ArePieces text r.cuts ∧
      p.i < r.next.i ∧ r.next.i ≤ (bytes text).size := by
  obtain ⟨r, hr, hcuts, -⟩ := (hl.round p hlt).1 (hl.ends_of_arrives hstart h)
  exact ⟨r, hr, hcuts, hon _ p hlt r hr⟩

theorem Describes.exists_end {n : Nat} {p : Place} (hl : l.Describes text Ends) (hon : l.GoesOn)
    (hstart : Ends ⟨0, 0⟩) (h : l.Arrives (bytes text) n p) :
    ∃ n' q, l.Arrives (bytes text) n' q ∧ q.i = (bytes text).size := by
  by_cases hlt : p.i < (bytes text).size
  · obtain ⟨r, hr, -, hnext, -⟩ := hl.exists_round hon hstart h hlt
    exact exists_end hl hon hstart (h.next hlt hr)
  · have hle := (hon.arrives_le h).2
    exact ⟨n, p, h, Nat.le_antisymm hle (Nat.not_lt.1 hlt)⟩
termination_by (bytes text).size - p.i

theorem Describes.faultless (hl : l.Describes text Ends) (hon : l.GoesOn) (hstart : Ends ⟨0, 0⟩) :
    l.Faultless text where
  round _ _ h hlt := hl.exists_round hon hstart h hlt
  last _ p h hend :=
    (hl.last p (Nat.not_lt.2 (Nat.le_of_eq hend.symm))).1 (hl.ends_of_arrives hstart h)
  rounds_le _ _ h := hon.arrives_le h
  exists_end := hl.exists_end hon hstart .start

theorem iff_exists_round {σ : Type} {step : Except Fault σ} {f : σ → Round} {A : Prop}
    {P : Round → Prop} (hok : ∀ s, step = .ok s → (A ↔ P (f s)))
    (herror : ∀ fault, step = .error fault → ¬ A) : A ↔ ∃ r, step.map f = .ok r ∧ P r := by
  cases step with
  | error fault =>
    refine iff_of_false (herror fault rfl) ?_
    rintro ⟨r, hr, -⟩
    cases hr
  | ok s =>
    rw [hok s rfl]
    exact ⟨fun h => ⟨f s, rfl, h⟩, fun ⟨r, hr, h⟩ => Except.ok.inj hr ▸ h⟩

end Loop

open Loop (ArePieces)

/-! ### The loop over a statement -/

section Parts

variable {text : String} {start stop : Nat} {p : Place}

def textCut (start stop : Nat) : List (Nat × Nat) := if start < stop then [(start, stop)] else []

def ParameterStep.round (p : Place) : ParameterStep → Round
  | .skip next => ⟨[], ⟨p.start, next⟩⟩
  | .parameter stop => ⟨textCut p.start p.i ++ [(p.i + 1, stop)], ⟨stop, stop⟩⟩

def partsLoop : Loop where
  round bytes p h := (parameterStep bytes p.i h).map (·.round p)
  last bytes p := textCut p.start bytes.size

def PartsOk (text : String) (p : Place) : Prop :=
  ∃ parts, partsFrom text (bytes text) p.start p.i = .ok parts

theorem goesOn_partsLoop : partsLoop.GoesOn := by
  intro bytes p h r hr
  obtain ⟨step, hstep, rfl⟩ := Text.exists_ok_of_map_eq_ok hr
  have hbounds := parameterStep_bounds hstep
  cases step <;> exact hbounds

theorem exists_textPart_eq_ok_iff : (∃ parts, textPart text start stop = .ok parts) ↔
    ArePieces text (textCut start stop) := by
  unfold textPart textCut
  split
  · rw [exists_bind_pure_eq_ok_iff, Loop.arePieces_singleton]
  · exact iff_of_true ⟨[], rfl⟩ (Loop.arePieces_nil text)

theorem not_partsOk_of_error {fault : Fault} (h : p.i < (bytes text).size)
    (hstep : parameterStep (bytes text) p.i h = .error fault) : ¬ PartsOk text p := by
  rw [PartsOk, partsFrom, dif_pos h]
  split <;> simp_all

theorem partsOk_iff_of_step {step : ParameterStep} (h : p.i < (bytes text).size)
    (hstep : parameterStep (bytes text) p.i h = .ok step) :
    PartsOk text p ↔ ArePieces text (step.round p).cuts ∧ PartsOk text (step.round p).next := by
  cases step with
  | skip next =>
    rw [PartsOk, partsFrom_of_skip h hstep]
    exact (and_iff_right (Loop.arePieces_nil text)).symm
  | parameter stop =>
    rw [PartsOk, partsFrom_of_parameter h hstep, ParameterStep.round, Loop.arePieces_append,
      Loop.arePieces_singleton, ← exists_textPart_eq_ok_iff, and_assoc]
    refine exists_bind_eq_ok_iff_of_iff fun parts => exists_bind_eq_ok_iff_of_iff fun name => ?_
    exact exists_bind_pure_eq_ok_iff

theorem partsLoop_describes (text : String) : partsLoop.Describes text (PartsOk text) where
  round p h := Loop.iff_exists_round (fun _ => partsOk_iff_of_step h)
    fun _ => not_partsOk_of_error h
  last p h := by
    rw [PartsOk, partsFrom, dif_neg h]
    exact exists_textPart_eq_ok_iff

example : partsLoop.round (bytes "é :aé") ⟨0, 3⟩ (by decide) = .ok ⟨[(0, 3), (4, 5)], ⟨5, 5⟩⟩ := by
  cbv

end Parts

/-! ### The loop over a script -/

section Statements

variable {text : String} {p : Place}

def StatementStep.round (p : Place) : StatementStep → Round
  | .keep next => ⟨[], ⟨p.start, next⟩⟩
  | .comment _ next => ⟨[(p.start, p.i)], ⟨next, next⟩⟩
  | .finish => ⟨[(p.start, p.i)], ⟨p.i + 1, p.i + 1⟩⟩

def statementsLoop : Loop where
  round bytes p h := (statementStep bytes p.i h).map (·.round p)
  last bytes p := [(p.start, bytes.size)]

def StatementsOk (text : String) (p : Place) : Prop :=
  ∀ pending, ∃ statements, statementsFrom text (bytes text) pending p.start p.i = .ok statements

theorem goesOn_statementsLoop : statementsLoop.GoesOn := by
  intro bytes p h r hr
  obtain ⟨step, hstep, rfl⟩ := Text.exists_ok_of_map_eq_ok hr
  have hbounds := statementStep_bounds hstep
  cases step <;> exact hbounds

theorem statementsOk_of_exists {pending : String} {start i : Nat}
    (h : ∃ statements, statementsFrom text (bytes text) pending start i = .ok statements) :
    StatementsOk text ⟨start, i⟩ := by
  intro other
  fun_induction statementsFrom text (bytes text) pending start i generalizing other with
  | case1 pending start i hi fault hstep =>
    obtain ⟨statements, h⟩ := h
    cases h
  | case2 pending start i hi next hstep ih =>
    rw [statementsFrom_of_keep hi hstep]
    exact ih h other
  | case3 pending start i hi gap next hstep ih =>
    obtain ⟨piece, hcut, hrest⟩ := exists_bind_eq_ok_iff.1 h
    rw [statementsFrom_of_comment hi hstep]
    exact exists_bind_eq_ok_iff.2 ⟨piece, hcut, ih piece hrest _⟩
  | case4 pending start i hi hstep ih =>
    obtain ⟨piece, hcut, hrest⟩ := exists_bind_eq_ok_iff.1 h
    obtain ⟨rest, hrest, -⟩ := exists_bind_eq_ok_iff.1 hrest
    rw [statementsFrom_of_finish hi hstep, hcut, hrest]
    exact ⟨_, rfl⟩
  | case5 pending start i hi =>
    obtain ⟨piece, hcut, -⟩ := exists_bind_eq_ok_iff.1 h
    rw [statementsFrom, dif_neg hi, hcut]
    exact ⟨_, rfl⟩

theorem statementsOk_iff_exists (p : Place) (pending : String) : StatementsOk text p ↔
    ∃ statements, statementsFrom text (bytes text) pending p.start p.i = .ok statements :=
  ⟨fun h => h pending, statementsOk_of_exists⟩

theorem not_statementsOk_of_error {fault : Fault} (h : p.i < (bytes text).size)
    (hstep : statementStep (bytes text) p.i h = .error fault) : ¬ StatementsOk text p := by
  rw [statementsOk_iff_exists p "", statementsFrom, dif_pos h]
  split <;> simp_all

theorem statementsOk_iff_of_step {step : StatementStep} (h : p.i < (bytes text).size)
    (hstep : statementStep (bytes text) p.i h = .ok step) : StatementsOk text p ↔
      ArePieces text (step.round p).cuts ∧ StatementsOk text (step.round p).next := by
  cases step with
  | keep next =>
    have hnext := @statementsOk_iff_exists text ⟨p.start, next⟩ ""
    rw [statementsOk_iff_exists p "", statementsFrom_of_keep h hstep]
    exact hnext.symm.trans (and_iff_right (Loop.arePieces_nil text)).symm
  | comment gap next =>
    rw [statementsOk_iff_exists p "", statementsFrom_of_comment h hstep, StatementStep.round,
      Loop.arePieces_singleton]
    exact exists_bind_eq_ok_iff_of_iff fun piece => (statementsOk_iff_exists ⟨next, next⟩ _).symm
  | finish =>
    rw [statementsOk_iff_exists p "", statementsFrom_of_finish h hstep, StatementStep.round,
      Loop.arePieces_singleton]
    refine exists_bind_eq_ok_iff_of_iff fun piece => ?_
    rw [exists_bind_pure_eq_ok_iff]
    exact (statementsOk_iff_exists ⟨p.i + 1, p.i + 1⟩ "").symm

theorem statementsLoop_describes (text : String) :
    statementsLoop.Describes text (StatementsOk text) where
  round p h := Loop.iff_exists_round (fun _ => statementsOk_iff_of_step h)
    fun _ => not_statementsOk_of_error h
  last p h := by
    rw [statementsOk_iff_exists p "", statementsFrom, dif_neg h, exists_bind_pure_eq_ok_iff]
    exact Loop.arePieces_singleton.symm

example : statementsLoop.round (bytes "é/*é") ⟨0, 2⟩ (by decide) = .ok ⟨[(0, 2)], ⟨6, 6⟩⟩ := by cbv

end Statements

/-- The readers stop within any bytes, and the scans of a text for parameters and for statements end
without a fault. Each is a loop of which no round ends in a fault: each round goes on and not past
the end, and cuts the text between characters only. -/
theorem scans_faultless (text : String) :
    (∀ bytes start, StopsAtOpeners bytes start) ∧
      (partsLoop.Describes text (PartsOk text) ∧ partsLoop.Faultless text ∧
        scanParts text = .ok (NamedSql.parse text).parts) ∧
      (statementsLoop.Describes text (StatementsOk text) ∧ statementsLoop.Faultless text ∧
        scanStatements text = .ok (statements text)) := by
  have hparts : scanParts text = .ok (NamedSql.parse text).parts := by
    rw [parts_parse, scanParts_eq]
  have hstatements : scanStatements text = .ok (statements text) := by
    rw [statements, scanStatements_eq]
    rfl
  have hpartsOk : PartsOk text ⟨0, 0⟩ := ⟨_, hparts⟩
  have hstatementsOk : StatementsOk text ⟨0, 0⟩ := statementsOk_of_exists ⟨_, hstatements⟩
  have hpartsLoop := partsLoop_describes text
  have hstatementsLoop := statementsLoop_describes text
  exact ⟨stopsAtOpeners,
    ⟨hpartsLoop, hpartsLoop.faultless goesOn_partsLoop hpartsOk, hparts⟩,
    ⟨hstatementsLoop, hstatementsLoop.faultless goesOn_statementsLoop hstatementsOk, hstatements⟩⟩

end QueryMapping.Sql
