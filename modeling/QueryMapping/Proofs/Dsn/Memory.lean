import QueryMapping.Proofs.Dsn.Query
import QueryMapping.Text.Search

/-! Data source names of databases in memory. They are told by two texts that are looked for in the
name, and not by its parts; it is said here how the two differ, and what opening a database does by
them. -/

namespace QueryMapping

theorem Text.occursIn_iff {pattern cs : List Char} :
    Text.occursIn pattern cs = true ↔ pattern <:+: cs := by
  induction cs with
  | nil => rw [Text.occursIn, List.isEmpty_iff, List.infix_nil]
  | cons c cs ih =>
    rw [Text.occursIn, Bool.or_eq_true, List.isPrefixOf_iff_prefix, ih, List.infix_cons_iff]

namespace Dsn

open Url (readForm)

variable {d : String} {cs rest start : List Char} {engine : Engine}

/-! ### Parts -/

def afterScheme (d : String) : List Char := withoutStart "sqlite:".toList (Text.trimStart d.toList)

def body (d : String) : List Char := withoutStart "//".toList (afterScheme d)

def memoryMode : List Char := "mode=memory".toList

def HasMemoryMode (d : String) : Prop :=
  ∃ query ∈ (sqliteParts d).2, paramBytes ("mode", "memory") ∈ readForm query

def NamesMemory (d : String) : Prop := (sqliteParts d).1 = ":memory:".toList ∨ HasMemoryMode d

theorem withoutStart_append (start rest : List Char) :
    withoutStart start (start ++ rest) = rest := by
  rw [withoutStart, if_pos (List.isPrefixOf_iff_prefix.2 (List.prefix_append _ _)), List.drop_left]

theorem withoutStart_of_not_prefix (h : ¬ start <+: cs) : withoutStart start cs = cs := by
  rw [withoutStart, if_neg (mt List.isPrefixOf_iff_prefix.1 h)]

theorem trimStart_of_detect (h : detect d = .ok .sqlite) :
    Text.trimStart d.toList = "sqlite".toList ∨
    Text.trimStart d.toList = "sqlite:".toList ++ afterScheme d := by
  have hname : (Text.trimStart d.toList).takeWhile (· ≠ ':') = "sqlite".toList := by
    rw [detect] at h
    split at h
    case h_4 heq => rw [← heq, String.toList_ofList]
    all_goals cases h
  rcases cases_of_dropWhile_ne ':' (Text.trimStart d.toList) with ⟨-, hwhole⟩ | ⟨rest, -, hwhole⟩
  · exact .inl (hwhole.symm.trans hname)
  · have hstart : "sqlite:".toList ++ rest = Text.trimStart d.toList := by
      rw [← hwhole, hname]
      rfl
    refine .inr ?_
    rw [afterScheme, ← hstart, withoutStart_append]

theorem afterScheme_of_trimStart (h : Text.trimStart d.toList = "sqlite".toList) :
    afterScheme d = "sqlite".toList := by
  rw [afterScheme, h]
  rfl

theorem body_eq (d : String) :
    body d = (sqliteParts d).1 ++ (sqliteParts d).2.elim [] ('?' :: ·) := by
  have hbody : withoutStart "//".toList (withoutStart "sqlite:".toList (Text.trimStart d.toList)) =
      body d := rfl
  simp only [sqliteParts, hbody, List.span_eq_takeWhile_dropWhile]
  rcases cases_of_dropWhile_ne '?' (body d) with ⟨hdrop, hwhole⟩ | ⟨query, hdrop, hwhole⟩
  · rw [hdrop]
    exact hwhole.symm.trans (List.append_nil _).symm
  · rw [hdrop]
    exact hwhole.symm

theorem body_of_slashes (h : "//".toList <+: afterScheme d) :
    afterScheme d = '/' :: '/' :: body d := by
  obtain ⟨rest, hrest⟩ := h
  rw [body, ← hrest, withoutStart_append]
  rfl

theorem body_of_not_slashes (h : ¬ "//".toList <+: afterScheme d) : body d = afterScheme d := by
  rw [body, withoutStart_of_not_prefix h]

/-! ### Texts that are looked for -/

/-- The name shows one of the two texts, wherever it stands. -/
def ShowsMemory (d : String) : Prop :=
  ":memory:".toList <+: afterScheme d ∨ memoryMode <:+: (sqliteParts d).1 ∨
    ∃ query ∈ (sqliteParts d).2, ∃ piece ∈ query.splitOn '&', memoryMode <:+: piece

/-- Slashes stand before the name of a database in memory, or the query has the pair in another
spelling. -/
def HidesMemory (d : String) : Prop :=
  ((sqliteParts d).1 = ":memory:".toList ∧ "//".toList <+: afterScheme d) ∨
    ∃ query ∈ (sqliteParts d).2, paramBytes ("mode", "memory") ∈ readForm query ∧
    memoryMode ∉ query.splitOn '&'

/-- One of the texts is part of the name of a file, or of another pair. -/
def MentionsMemory (d : String) : Prop :=
  (∃ more, more ≠ [] ∧ (sqliteParts d).1 = ":memory:".toList ++ more) ∨
    memoryMode <:+: (sqliteParts d).1 ∨
    ∃ query ∈ (sqliteParts d).2, ∃ piece ∈ query.splitOn '&', memoryMode <:+: piece ∧
      piece ≠ memoryMode

theorem memoryMode_infix_body_iff : memoryMode <:+: body d ↔ memoryMode <:+: (sqliteParts d).1 ∨
    ∃ query ∈ (sqliteParts d).2, ∃ piece ∈ query.splitOn '&', memoryMode <:+: piece := by
  rw [body_eq]
  cases (sqliteParts d).2 with
  | none => simp
  | some query =>
    have hpieces := infix_iff_exists_mem_splitOn (show '&' ∉ memoryMode by decide) query
    rw [Option.elim_some, infix_append_cons_iff (by decide), hpieces]
    simp

theorem not_memoryMode_infix_of_not_mem (h : '=' ∉ cs) : ¬ memoryMode <:+: cs := fun hoccurs =>
  h (hoccurs.subset (by decide))

theorem memoryMode_infix_afterScheme_iff :
    memoryMode <:+: afterScheme d ↔ memoryMode <:+: body d := by
  by_cases hslashes : "//".toList <+: afterScheme d
  · have hslash (cs : List Char) : memoryMode <:+: '/' :: cs ↔ memoryMode <:+: cs :=
      (infix_append_cons_iff (by decide) [] cs).trans (or_iff_right (by decide))
    rw [body_of_slashes hslashes, hslash, hslash]
  · rw [body_of_not_slashes hslashes]

theorem memoryMode_infix_iff (h : detect d = .ok .sqlite) :
    memoryMode <:+: d.toList ↔ memoryMode <:+: body d := by
  obtain ⟨blanks, hblanks, hequals⟩ : ∃ blanks, d.toList = blanks ++ Text.trimStart d.toList ∧
      '=' ∉ blanks := by
    refine ⟨_, List.takeWhile_append_dropWhile.symm, fun hmem => ?_⟩
    exact absurd (List.mem_takeWhile_imp hmem) (by decide)
  have hword : '=' ∉ blanks ++ "sqlite".toList := fun hmem =>
    (List.mem_append.1 hmem).elim hequals (by decide)
  rw [← memoryMode_infix_afterScheme_iff]
  rcases trimStart_of_detect h with htrim | htrim
  · rw [hblanks, htrim, afterScheme_of_trimStart htrim]
    exact iff_of_false (not_memoryMode_infix_of_not_mem hword)
      (not_memoryMode_infix_of_not_mem (by decide))
  · have hwhole : d.toList = (blanks ++ "sqlite".toList) ++ ':' :: afterScheme d := by
      rw [hblanks, htrim, List.append_assoc]
      rfl
    rw [hwhole, infix_append_cons_iff (by decide),
      or_iff_right (not_memoryMode_infix_of_not_mem hword)]

theorem isMemory_iff (h : detect d = .ok .sqlite) : isMemory d = true ↔ ShowsMemory d := by
  have hfirst : "sqlite::memory:".toList <+: Text.trimStart d.toList ↔
      ":memory:".toList <+: afterScheme d := by
    have hstart : "sqlite::memory:".toList = "sqlite:".toList ++ ":memory:".toList := rfl
    rcases trimStart_of_detect h with htrim | htrim
    · rw [htrim, afterScheme_of_trimStart htrim]
      decide
    · rw [htrim, hstart, List.prefix_append_right_inj]
  rw [isMemory, Bool.or_eq_true, List.isPrefixOf_iff_prefix, Text.occursIn_iff, hfirst, ShowsMemory,
    ← memoryMode_infix_body_iff]
  exact or_congr_right (memoryMode_infix_iff h)

theorem mem_readForm_of_mem_splitOn {query : List Char} (h : memoryMode ∈ query.splitOn '&') :
    paramBytes ("mode", "memory") ∈ readForm query := by
  have hread := Url.readForm_intercalate (query.splitOn '&')
  rw [List.intercalate_splitOn] at hread
  rw [hread, List.mem_flatMap]
  exact ⟨memoryMode, h, by decide +kernel⟩

theorem hidesMemory_of_not_showsMemory (h : NamesMemory d) (hshows : ¬ ShowsMemory d) :
    HidesMemory d := by
  rcases h with hdatabase | ⟨query, hquery, hpair⟩
  · by_cases hslashes : "//".toList <+: afterScheme d
    · exact .inl ⟨hdatabase, hslashes⟩
    · refine absurd (.inl ?_) hshows
      rw [← body_of_not_slashes hslashes, body_eq, hdatabase]
      exact List.prefix_append _ _
  · refine .inr ⟨query, hquery, hpair,
      fun hmem => hshows (.inr (.inr ⟨query, hquery, memoryMode, hmem, ?_⟩))⟩
    exact List.infix_rfl

theorem mentionsMemory_of_showsMemory (h : ShowsMemory d) (hnames : ¬ NamesMemory d) :
    MentionsMemory d := by
  rcases h with hstart | hfile | ⟨query, hquery, piece, hpiece, hoccurs⟩
  · have hslashes : ¬ "//".toList <+: afterScheme d := fun hslashes => by
      rw [body_of_slashes hslashes] at hstart
      exact absurd (List.cons_prefix_cons.1 hstart).1 (by decide)
    have hdatabase : ":memory:".toList <+: (sqliteParts d).1 := by
      rw [← body_of_not_slashes hslashes, body_eq] at hstart
      cases hquery : (sqliteParts d).2 with
      | none => rwa [hquery, Option.elim_none, List.append_nil] at hstart
      | some query =>
        rw [hquery, Option.elim_some] at hstart
        exact (prefix_append_cons_iff (by decide)).1 hstart
    obtain ⟨more, hmore⟩ := hdatabase
    refine .inl ⟨more, fun hnil => hnames (.inl ?_), hmore.symm⟩
    rw [← hmore, hnil, List.append_nil]
  · exact .inr (.inl hfile)
  · refine .inr (.inr ⟨query, hquery, piece, hpiece, hoccurs,
      fun heq => hnames (.inr ⟨query, hquery, ?_⟩)⟩)
    exact mem_readForm_of_mem_splitOn (heq ▸ hpiece)

/-! ### Opening databases -/

section Opening

variable {o pool : ConnectOptions} {files : Files} {options : OpenOptions} {handle : Handle}

def IsPooled (pool : ConnectOptions) (handle : Handle) : Prop :=
  handle.pool = Handle.poolOf pool handle.pool.session.base

theorem isPooled_openFile (h : (Handle.openFile options pool d files).1 = .ok handle) :
    IsPooled pool handle := by
  simp only [Handle.openFile] at h
  split at h
  · cases h
  · split at h
    · obtain rfl := Except.ok.inj h
      rfl
    · split at h
      · obtain rfl := Except.ok.inj h
        rfl
      · cases h

theorem isPooled_openWith (h : (Handle.openWith options pool d files).1 = .ok handle) :
    IsPooled pool handle := by
  unfold Handle.openWith at h
  split at h
  · cases h
  · split at h
    · obtain rfl := Except.ok.inj h
      rfl
    · exact isPooled_openFile h

theorem isPooled_connect (hdetect : detect d = .ok .sqlite)
    (h : (Handle.connect o d files).1 = .ok handle) :
    IsPooled (Handle.poolOptions o d) handle := by
  simp only [Handle.connect, hdetect, Handle.connectSqlite] at h
  split at h
  · cases h
  · split at h
    · cases h
    · split at h
      · exact isPooled_openWith h
      · cases h

theorem limit_of_pinned (h : IsPooled o.pinned handle) : handle.pool.limit = 1 := by
  rw [h]
  rfl

theorem connect_of_isMemory (h : isMemory d = true) :
    Handle.connect o d files = Handle.connect { o with createDirectories := false } d files := by
  simp only [Handle.connect, Handle.connectSqlite, h, poolOptions_createDirectories]
  rfl

theorem connect_of_not_isPrefixOf (hdetect : detect d = .ok .sqlite)
    (h : ¬ "sqlite:".toList.isPrefixOf (Text.trimStart d.toList) = true)
    (hmemory : isMemory d = false) (ho : o.createDirectories = true) :
    Handle.connect o d files = (.error (.dsn (.badSetting (.notSqlite d))), files) := by
  have hmade :
      Handle.makeDirectories d files = .error (.dsn (.badSetting (.notSqlite d))) := if_neg h
  simp [Handle.connect, Handle.connectSqlite, hdetect, hmemory, ho, hmade]

structure Opens (d : String) (o : ConnectOptions) (files : Files) : Prop where
  pool : ∀ handle, (Handle.connect o d files).1 = .ok handle →
    IsPooled (if isMemory d then o.pinned else o) handle
  pinned : isMemory d = true → ∀ handle, (Handle.connect o d files).1 = .ok handle →
    handle.pool.limit = 1
  memory : isMemory d = true →
    Handle.connect o d files = Handle.connect { o with createDirectories := false } d files
  /-- A name without a colon names no file that directories could be made for. -/
  file : isMemory d = false → o.createDirectories = true → Handle.connect o d files =
    if "sqlite:".toList.isPrefixOf (Text.trimStart d.toList) then
      connectBelow (sqlitePath d) o d files
    else (.error (.dsn (.badSetting (.notSqlite d))), files)

theorem opens_of_detect (h : detect d = .ok .sqlite) (o : ConnectOptions) (files : Files) :
    Opens d o files where
  pool _ hhandle := isPooled_connect h hhandle
  pinned hmemory handle hhandle := by
    have hpool := isPooled_connect h hhandle
    rw [Handle.poolOptions, if_pos hmemory] at hpool
    exact limit_of_pinned hpool
  memory hmemory := connect_of_isMemory hmemory
  file hmemory ho := by
    split
    · next hstart => exact connect_eq_connectBelow h hstart hmemory ho
    · next hstart => exact connect_of_not_isPrefixOf h hstart hmemory ho

end Opening

/-- The pool of an SQLite database is pinned to one connection just if its name shows one of two
texts. A name of a database in memory shows neither if slashes stand before it or its query spells
the pair in another way. A name that shows one is that of another database if the text is part of a
file's name or of another pair. For all names that show neither the options of the pool are kept,
and the directories above the file are made. -/
theorem connect_sqlite_memory (h : detect d = .ok .sqlite) :
    (isMemory d = true ↔ ShowsMemory d) ∧
    (NamesMemory d → ¬ ShowsMemory d → HidesMemory d) ∧
    (ShowsMemory d → ¬ NamesMemory d → MentionsMemory d) ∧
    ∀ (o : ConnectOptions) (files : Files), Opens d o files :=
  ⟨isMemory_iff h, hidesMemory_of_not_showsMemory, mentionsMemory_of_showsMemory, opens_of_detect h⟩

theorem connect_sqlite_memory_shared :
    let d := "sqlite:file:memdb1?mode=memory&cache=shared"
    detect d = .ok .sqlite ∧
    (isMemory d = true ↔ ShowsMemory d) ∧
    (NamesMemory d → ¬ ShowsMemory d → HidesMemory d) ∧
      (ShowsMemory d → ¬ NamesMemory d → MentionsMemory d) ∧
    ∀ (o : ConnectOptions) (files : Files), Opens d o files := by
  intro d
  have hdetect : detect d = .ok .sqlite := by decide +kernel
  exact ⟨hdetect, connect_sqlite_memory hdetect⟩

/-- A file whose name has the text is taken for a database in memory, and one in memory behind
slashes is not. -/
theorem file_is_taken_for_memory :
    let file := "sqlite:///tmp/mode=memory.db"
    let memory := "sqlite://:memory:"
    (detect file = .ok .sqlite ∧ sqlitePath file = "/tmp/mode=memory.db" ∧
      (sqliteParts file).2 = none ∧
      isMemory file = true) ∧
    detect memory = .ok .sqlite ∧ sqlitePath memory = ":memory:" ∧ isMemory memory = false := by
  decide +kernel

end Dsn

end QueryMapping
