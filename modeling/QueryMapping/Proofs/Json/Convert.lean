import QueryMapping.Proofs.Json.Conform
import QueryMapping.Proofs.Json.Document
import QueryMapping.Sample.Entity

/-! The converters of documents. A writer looks at a document's form only, and accepts every
document that can be read as a tree. -/

namespace QueryMapping

namespace Json

def Frame.container : Frame → Container
  | .array _ => .array
  | .object _ | .member .. | .embedding | .embedded _ => .object

namespace Building

def scan (b : Building) : Scan :=
  let containers := b.frames.map Frame.container
  match b.next with
  | .value => ⟨containers, .value⟩
  | .element => ⟨containers, .element⟩
  | .member => ⟨containers, .member⟩
  | .key => ⟨containers, .key⟩
  | .colon => ⟨containers, .colon⟩
  | .separator => ⟨containers, .separator⟩
  | .done _ => ⟨[], .separator⟩

variable {read : String → Option Tree} {frames : List Frame} {t : Token} {b b' : Building}

theorem scan_of_deliver? {tree : Tree} (h : deliver? frames tree = some b) :
    b.scan = ⟨frames.map Frame.container, .separator⟩ := by
  cases frames with
  | nil =>
    cases h
    rfl
  | cons frame outer =>
    cases frame with
    | array items | member members key =>
      cases h
      rfl
    | object members | embedding | embedded document => cases h

theorem scan_of_close? (h : close? frames = some b) (next : Expectation) :
    Scan.close? ⟨frames.map Frame.container, next⟩ = some b.scan := by
  cases frames with
  | nil => cases h
  | cons frame outer =>
    cases frame with
    | array items | object members | embedded document =>
      rw [scan_of_deliver? h]
      rfl
    | member members key | embedding => cases h

theorem eq_of_open? {frame : Frame} {next : Awaiting} (h : open? frames frame next = some b) :
    b = ⟨frame :: frames, next⟩ := by
  unfold open? at h
  split at h
  · exact (Option.some.inj h).symm
  · cases h

theorem scan_of_string? {s : String} (h : string? read frames s = some b) :
    b.scan = ⟨frames.map Frame.container, .separator⟩ := by
  unfold string? at h
  split at h
  · obtain ⟨document, -, rfl⟩ := Option.map_eq_some_iff.1 h
    rfl
  · exact scan_of_deliver? h

theorem scan_of_value? (h : value? read frames t = some b) (next : Expectation) :
    Scan.value? ⟨frames.map Frame.container, next⟩ t = some b.scan := by
  cases t with
  | openArray | openObject =>
    rw [eq_of_open? h]
    rfl
  | null | bool x =>
    rw [scan_of_deliver? h]
    rfl
  | number n =>
    obtain ⟨x, -, h⟩ := Option.bind_eq_some_iff.1 h
    rw [scan_of_deliver? h]
    rfl
  | string parts =>
    obtain ⟨s, -, h⟩ := Option.bind_eq_some_iff.1 h
    rw [scan_of_string? h]
    rfl
  | closeArray | closeObject | comma | colon => cases h

theorem eq_of_key? (h : key? frames t = some b) : ∃ members outer parts key,
    frames = .object members :: outer ∧ t = .string parts ∧
    b = ⟨.member members key :: outer, .colon⟩ := by
  unfold key? at h
  split at h
  · obtain ⟨key, -, rfl⟩ := Option.map_eq_some_iff.1 h
    exact ⟨_, _, _, _, rfl, rfl, rfl⟩
  · cases h

theorem scan_of_firstKey? (h : firstKey? frames t = some b) :
    (∃ parts, t = .string parts) ∧ b.scan = ⟨frames.map Frame.container, .colon⟩ := by
  obtain ⟨b', hkey, rfl⟩ := Option.map_eq_some_iff.1 h
  obtain ⟨members, outer, parts, key, rfl, rfl, rfl⟩ := eq_of_key? hkey
  refine ⟨⟨parts, rfl⟩, ?_⟩
  dsimp only
  split <;> rfl

theorem scan_step (h : step? read b t = some b') : b.scan.step? t = some b'.scan := by
  obtain ⟨frames, next⟩ := b
  cases next with
  | value => exact scan_of_value? h _
  | element =>
    change (if t = .closeArray then close? frames else value? read frames t) = some b' at h
    rw [scan, Scan.step?_element]
    split at h
    · next ht =>
      rw [if_pos ht]
      exact scan_of_close? h _
    · next ht =>
      rw [if_neg ht]
      exact scan_of_value? h _
  | member =>
    change (if t = .closeObject then close? frames else firstKey? frames t) = some b' at h
    split at h
    · next ht =>
      subst ht
      exact scan_of_close? h _
    · obtain ⟨⟨parts, rfl⟩, hscan⟩ := scan_of_firstKey? h
      rw [hscan]
      rfl
  | key =>
    obtain ⟨members, outer, parts, key, rfl, rfl, rfl⟩ := eq_of_key? h
    rfl
  | colon =>
    change (if t = .colon then some (⟨frames, .value⟩ : Building) else none) = some b' at h
    split at h
    · next ht =>
      cases ht
      cases h
      rfl
    · cases h
  | separator =>
    unfold step? at h
    dsimp only at h
    split at h
    · cases h
      rfl
    · exact scan_of_close? h .separator
    · cases h
      rfl
    · exact scan_of_close? h .separator
    · exact scan_of_close? h .separator
    · cases h
  | done tree => cases h

theorem scan_foldlM {ts : List Token} (h : ts.foldlM (step? read) b = some b') :
    ts.foldlM Scan.step? b.scan = some b'.scan := by
  induction ts generalizing b with
  | nil =>
    cases h
    rfl
  | cons t ts ih =>
    rw [List.foldlM_cons] at h ⊢
    obtain ⟨b₁, hstep, hrun⟩ := Option.bind_eq_some_iff.1 h
    exact Option.bind_eq_some_iff.2 ⟨_, scan_step hstep, ih hrun⟩

end Building

theorem isValid_of_parse? {text : String} {tree : Tree} (h : parse? text = some tree) :
    isValid text = true := by
  obtain ⟨ts, htokens, h⟩ := Option.bind_eq_some_iff.1 h
  obtain ⟨b, hrun, hresult⟩ := Option.bind_eq_some_iff.1 h
  have hscan : ts.foldlM Scan.step? Scan.start = some ⟨[], .separator⟩ := by
    obtain ⟨frames, next⟩ := b
    cases next with
    | done t => exact Building.scan_foldlM hrun
    | value | element | member | key | colon | separator => cases hresult
  rw [isValid, htokens]
  simp only [hscan]
  rfl

theorem library_conforms : library.Conforms where
  isValid_iff _ := isValid_iff_isDocument
  isDocument_of_parse? _ _ h := isValid_iff_isDocument.1 (isValid_of_parse? h)

end Json

namespace Conversions

variable {τ : Type} [TypeFamily τ] [DecidableEq τ]

theorem writerFor?_filter (w : Writer τ) (ws : List (Writer τ)) :
    writerFor? w.source (ws.filter (·.source ≠ w.source) ++ [w]) = some w.write := by
  induction ws with
  | nil => simp [writerFor?]
  | cons w' ws ih =>
    by_cases h : w'.source = w.source
    · rw [List.filter_cons_of_neg (by simpa using h), ih]
    · rw [List.filter_cons_of_pos (by simpa using h), List.cons_append, writerFor?, dif_neg h, ih]

theorem readerFor?_filter (r : Reader τ) (rs : List (Reader τ)) :
    readerFor? r.target (rs.filter (·.target ≠ r.target) ++ [r]) = some r.read := by
  induction rs with
  | nil => simp [readerFor?]
  | cons r' rs ih =>
    by_cases h : r'.target = r.target
    · rw [List.filter_cons_of_neg (by simpa using h), ih]
    · rw [List.filter_cons_of_pos (by simpa using h), List.cons_append, readerFor?, dif_neg h, ih]

theorem write_withWriter (c : Conversions τ) (w : Writer τ) (a : TypeFamily.Carrier w.source) :
    (c.withWriter w).write w.source a = w.write a := by
  rw [write, withWriter, writerFor?_filter]

theorem read_withReader (c : Conversions τ) (r : Reader τ) (v : Value) :
    (c.withReader r).read r.target v = r.read v := by
  rw [read, withReader, readerFor?_filter]

end Conversions

namespace JsonHolder

open Sample

variable {columnType : String}

theorem read_typed (hcolumn : columnType = "json" ∨ columnType = "jsonb") (content : String) :
    read (.typed ⟨columnType, some content⟩) = .ok ⟨content⟩ := by
  rw [read, if_pos (isJson_of_name hcolumn _)]

/-- A document that is written comes back unchanged, whatever other converters there are, and else
the writer calls it malformed. What is written is what the grammar of documents spells, and so all
that can be read as a tree. This holds with every library that keeps to the grammar, as the one here
does. -/
theorem written_exactly :
    Json.library.Conforms ∧ ∀ {D : Type} (l : JsonLibrary D), l.Conforms →
      ∀ (conversions : Conversions Entity) (columnType : String),
        (columnType = "json" ∨ columnType = "jsonb") → ∀ holder : JsonHolder,
      let writer : Writer Entity := ⟨.json, writeBy l columnType⟩
      let conversions := (conversions.withWriter writer).withReader jsonReader
      let written := conversions.write .json holder
      (written = .error .malformed ∨
        ∃ v, written = .ok v ∧ v = .typed ⟨columnType, some holder.content⟩ ∧
          conversions.read .json v = .ok holder ∧
          conversions.readOptional .json v = .ok (some holder)) ∧
        ((∃ v, written = .ok v) ↔ Json.IsDocument holder.content) ∧
        ∀ document, holder.parseBy? l = some document → ∃ v, written = .ok v := by
  refine ⟨Json.library_conforms, fun l hl conversions columnType hcolumn ⟨content⟩ => ?_⟩
  intro writer conversions' written
  have hwritten : written = writeBy l columnType ⟨content⟩ :=
    Conversions.write_withWriter conversions writer ⟨content⟩
  have hread : conversions'.read .json (.typed ⟨columnType, some content⟩) = .ok ⟨content⟩ :=
    (Conversions.read_withReader _ jsonReader _).trans (read_typed hcolumn content)
  have hok : (∃ v, written = .ok v) ↔ Json.IsDocument content := by
    simp only [hwritten, writeBy_eq_ok_iff, exists_and_left, exists_eq, and_true, hl.isValid_iff]
  refine ⟨?_, hok, fun document hdocument => hok.2 (hl.isDocument_of_parse? _ _ hdocument)⟩
  by_cases hvalid : l.isValid content = true
  · refine .inr ⟨_, hwritten.trans (writeBy_eq_ok_iff.2 ⟨hvalid, rfl⟩), rfl, hread, ?_⟩
    rw [Conversions.readOptional, hread]
    rfl
  · exact .inl (hwritten.trans (if_neg hvalid))

theorem written_exactly_nested :
    let holder : JsonHolder := ⟨" \x7b\"k\": [-0.5, \"\\u00e9\", \x7b\x7d]\x7d"⟩
    let conversions := (jsonConversions.withWriter (jsonWriter "jsonb")).withReader jsonReader
    holder.parse?.isSome = true ∧
      conversions.write .json holder = .ok (.typed ⟨"jsonb", some holder.content⟩) ∧
      conversions.readOptional .json (.typed ⟨"jsonb", some holder.content⟩) =
        .ok (some holder) := by
  intro holder conversions
  have hparse : holder.parse?.isSome = true := by decide +kernel
  obtain ⟨hlibrary, hwritten⟩ := written_exactly
  obtain ⟨hkept, -, hread⟩ :=
    hwritten Json.library hlibrary jsonConversions "jsonb" (.inr rfl) holder
  obtain ⟨tree, htree⟩ := Option.isSome_iff_exists.1 hparse
  obtain ⟨v, hv⟩ := hread tree htree
  obtain hbad | ⟨v', hv', rfl, -, hoptional⟩ := hkept
  · cases hbad.symm.trans hv
  · exact ⟨hparse, hv', hoptional⟩

end JsonHolder

end QueryMapping
