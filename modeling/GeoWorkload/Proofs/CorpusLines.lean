import GeoWorkload.Corpus
import GeoWorkload.Proofs.LineEnds
import Mathlib.Data.List.TakeWhile

/-!
# Corpora on lines

A file of lines, each of them blank or a JSON text of the next document (`Corpus.Holds`), loads as its
documents when there are two of them or more and none of their texts is broken by a character that ends a
line; a file of the array of the same documents, or of the collection of them, loads as the same ones
(`Corpus.ofFile_lines`).

The text of the file is no JSON text, since more follows the first document, and so it is read by lines
(`Corpus.Holds.readChars`); that each document is on one line comes from the text with its ends of lines
unified, where the blanks around a document and between two of them may be taken for each other
(`Corpus.Loads`).  A string may hold three of the characters that end a line: a document with one of them
does not load (`Corpus.ofFile_separated`).  The documents are those whose strings hold no half of a pair of UTF-16
units (`Json.ofUnit`), the texts those that escape no such half.
-/

namespace GeoWorkload

namespace Text

/-- The text of lines, each ended by a line feed. -/
def terminated (lines : List (List Char)) : List Char := lines.flatMap (· ++ ['\n'])

theorem terminated_cons (line : List Char) (lines : List (List Char)) :
    terminated (line :: lines) = line ++ '\n' :: terminated lines := by
  simp [terminated]

theorem strip_eq_empty_iff {s : List Char} :
    strip (String.ofList s) = "" ↔ ∀ c ∈ s, isBlank c = true := by
  have hofList : strip (String.ofList s) = "" ↔ stripChars s = [] := by simp [strip]
  rw [hofList, stripChars, List.reverse_eq_nil_iff, List.dropWhile_eq_nil_iff]
  constructor
  · intro h
    rw [← List.dropWhile_eq_nil_iff]
    by_contra hne
    have hhead := List.head_dropWhile_not isBlank hne
    rw [h _ (List.mem_reverse.mpr (List.head_mem hne))] at hhead
    exact absurd hhead (by decide)
  · intro h c hc
    exact h c ((List.dropWhile_sublist isBlank).subset (List.mem_reverse.mp hc))

end Text

namespace Corpus

open Json (Blanks IsText Writes)
open Text (isLineBreak linesFrom terminated unifyLineEnds)

/-! ### Documents on lines -/

/-- A document and a JSON text of it. -/
structure Entry where
  text : List Char
  members : Json.Members
  writes : Writes text (.value (.object members))

/-- The document of an entry. -/
def Entry.document (e : Entry) : Json.Value := .object e.members

/-- The text of the document holds none of the characters that may stand in a JSON text and end a line,
the line feed apart. -/
def Entry.IsUnbroken (e : Entry) : Prop := ∀ c ∈ ['\r', '\u0085', '\u2028', '\u2029'], c ∉ e.text

/-- The lines hold the entries in turn, one on a line, with blank lines among them. -/
inductive Holds : List (List Char) → List Entry → Prop
  | nil : Holds [] []
  | blank {line : List Char} {lines : List (List Char)} {entries : List Entry}
      (hline : ∀ c ∈ line, c = ' ' ∨ c = '\t') (hrest : Holds lines entries) :
      Holds (line :: lines) entries
  | entry {b b' : List Char} {lines : List (List Char)} {e : Entry} {entries : List Entry}
      (hb : Blanks b) (hb' : Blanks b') (hline : '\n' ∉ b ++ (e.text ++ b'))
      (hrest : Holds lines entries) : Holds ((b ++ (e.text ++ b')) :: lines) (e :: entries)

/-- The file at a path holds a text, written in UTF-8. -/
def HoldsText (files : Files) (homes : Homes) (path : String) (s : List Char) : Prop :=
  ∃ p, Files.pathOf homes path = .ok p ∧ files.readBytes p = .ok (String.ofList s).toUTF8

/-! ### Lines one by one -/

theorem isLineBreak_of_isBlank {c : Char} (hc : Json.isBlank c = true) (hfeed : c ≠ '\n')
    (hreturn : c ≠ '\r') : isLineBreak c = false := by
  simp only [Json.isBlank, Bool.or_eq_true, decide_eq_true_eq] at hc
  rcases hc with ((rfl | rfl) | rfl) | rfl
  · decide
  · decide
  · exact absurd rfl hfeed
  · exact absurd rfl hreturn

theorem isBlank_of_blanks {b : List Char} (hb : Blanks b) : ∀ c ∈ b, Text.isBlank c = true := by
  intro c hc
  have hblank := hb c hc
  simp only [Json.isBlank, Bool.or_eq_true, decide_eq_true_eq] at hblank
  rcases hblank with ((rfl | rfl) | rfl) | rfl <;> decide

theorem strip_of_blanks {b : List Char} (hb : Blanks b) : Text.strip (String.ofList b) = "" :=
  Text.strip_eq_empty_iff.mpr (isBlank_of_blanks hb)

theorem isBlank_of_starts {c : Char} (hc : Json.Starts c) : Text.isBlank c = false := by
  rcases hc with hdigit | hmem
  · simp only [Char.isDigit, Bool.and_eq_true, decide_eq_true_eq] at hdigit
    have hlow : 48 ≤ c.toNat := hdigit.1
    have hhigh : c.toNat ≤ 57 := hdigit.2
    simp [Text.isBlank]
    omega
  · have hall : ∀ d ∈ ['-', '"', '[', '{', 'n', 't', 'f'], Text.isBlank d = false :=
      Json.forall_mem_of_all (by decide)
    exact hall c hmem

/-- A line with the text of a document is not blank. -/
theorem strip_ne_of_entry (e : Entry) (b b' : List Char) :
    Text.strip (String.ofList (b ++ (e.text ++ b'))) ≠ "" := by
  obtain ⟨c, t, htext, hc⟩ := e.writes.exists_cons
  rw [Ne, Text.strip_eq_empty_iff]
  intro hblank
  have hmem : c ∈ b ++ (e.text ++ b') := by simp [htext]
  exact absurd (hblank c hmem) (by simp [isBlank_of_starts hc])

theorem ofLine_of_entry (e : Entry) {b b' : List Char} (hb : Blanks b) (hb' : Blanks b')
    (number : Nat) : ofLine number (String.ofList (b ++ (e.text ++ b'))) = .ok e.document := by
  have hread := Json.read_of_isText ⟨b, e.text, b', rfl, hb, e.writes, hb'⟩
  rw [ofLine, hread]
  rfl

/-- The lines of the text hold the documents, also where the first of them goes on after blanks. -/
def Loads (s : List Char) (docs : List Json.Value) : Prop :=
  ∀ number line, Blanks line → ofLines number ((linesFrom line s).map String.ofList) = .ok docs

theorem loads_nil : Loads [] [] := by
  intro number line hline
  cases line with
  | nil => rfl
  | cons c line =>
      have hblank : Blanks (c :: line).reverse := fun d hd => hline d (List.mem_reverse.mp hd)
      rw [linesFrom, List.map_singleton, ofLines, if_pos (strip_of_blanks hblank)]
      · rfl
      · simp

theorem Loads.cons_blank {c : Char} {s : List Char} {docs : List Json.Value} (h : Loads s docs)
    (hc : Json.isBlank c = true) (hreturn : c ≠ '\r') : Loads (c :: s) docs := by
  intro number line hline
  by_cases hfeed : c = '\n'
  · subst hfeed
    have hblank : Blanks line.reverse := fun d hd => hline d (List.mem_reverse.mp hd)
    rw [Text.linesFrom_feed, List.map_cons, ofLines, if_pos (strip_of_blanks hblank)]
    exact h (number + 1) [] Json.blanks_nil
  · have hbreak := isLineBreak_of_isBlank hc hfeed hreturn
    have hfrom := Text.linesFrom_append (s := [c]) (by simpa using hbreak) line s
    simp only [List.singleton_append, List.reverse_singleton] at hfrom
    rw [hfrom]
    refine h number (c :: line) fun d hd => ?_
    rcases List.mem_cons.mp hd with rfl | hd
    · exact hc
    · exact hline d hd

theorem Loads.append_blanks {b s : List Char} {docs : List Json.Value} (h : Loads s docs)
    (hb : Blanks b) (hreturn : '\r' ∉ b) : Loads (b ++ s) docs := by
  induction b with
  | nil => exact h
  | cons c b ih =>
      simp only [List.mem_cons, not_or] at hreturn
      have hrest := ih (fun d hd => hb d (List.mem_cons_of_mem _ hd)) hreturn.2
      exact hrest.cons_blank (hb c List.mem_cons_self) (Ne.symm hreturn.1)

theorem Entry.IsUnbroken.isLineBreak {e : Entry} (h : e.IsUnbroken) (hfeed : '\n' ∉ e.text) :
    ∀ c ∈ e.text, isLineBreak c = false := by
  intro c hc
  by_contra hbreak
  have hmem := e.writes.allowed.mem_of_isLineBreak hc (by simpa using hbreak)
  rcases List.mem_cons.mp hmem with rfl | hmem
  · exact hfeed hc
  · exact h c hmem hc

/-- A document on a line of its own: the blanks after it go up to the end of the line and further. -/
theorem Loads.entry {s g : List Char} {docs : List Json.Value} (h : Loads s docs) {e : Entry}
    (hbreak : ∀ c ∈ e.text, isLineBreak c = false) (hg : Blanks g) (hreturn : '\r' ∉ g)
    (hfeed : '\n' ∈ g) : Loads (e.text ++ (g ++ s)) (e.document :: docs) := by
  intro number line hline
  obtain ⟨g₁, g₂, rfl, hnot⟩ := List.eq_append_cons_of_mem hfeed
  have hg₁ : Blanks g₁ := fun c hc => hg c (List.mem_append_left _ hc)
  have hg₂ : Blanks g₂ := fun c hc => hg c (by simp [hc])
  have hbreak₁ : ∀ c ∈ g₁, isLineBreak c = false := by
    intro c hc
    refine isLineBreak_of_isBlank (hg₁ c hc) ?_ ?_
    · rintro rfl
      exact hnot hc
    · rintro rfl
      exact hreturn (List.mem_append_left _ hc)
  have hblank : Blanks line.reverse := fun d hd => hline d (List.mem_reverse.mp hd)
  have hfrom : linesFrom line (e.text ++ ((g₁ ++ '\n' :: g₂) ++ s)) =
      (line.reverse ++ (e.text ++ g₁)) :: linesFrom [] (g₂ ++ s) := by
    rw [Text.linesFrom_append hbreak, List.append_assoc, Text.linesFrom_append hbreak₁,
      List.cons_append, Text.linesFrom_feed]
    simp
  rw [hfrom, List.map_cons, ofLines, if_neg (strip_ne_of_entry e _ _), ofLine_of_entry e hblank hg₁]
  have hrest := h.append_blanks hg₂ (by simpa using fun hc => hreturn (by simp [hc]))
  rw [hrest (number + 1) [] Json.blanks_nil]
  rfl

/-! ### The text of lines -/

/-- Lines with an entry start with blanks and its text, and before the other lines its own one ends. -/
theorem Holds.exists_first {lines : List (List Char)} {e : Entry} {entries : List Entry}
    (h : Holds lines (e :: entries)) :
    '\n' ∉ e.text ∧ ∃ b g lines', Blanks b ∧ Blanks g ∧ '\n' ∈ g ∧ g.getLast? ≠ some '\r' ∧
      Holds lines' entries ∧ terminated lines = b ++ (e.text ++ (g ++ terminated lines')) := by
  generalize hall : e :: entries = all at h
  induction h with
  | nil => cases hall
  | @blank line lines _ hline _ ih =>
      obtain ⟨hfeed, b, g, lines', hb, hg, hend, hlast, hrest, htext⟩ := ih hall
      have hblank : Blanks (line ++ '\n' :: b) := by
        intro c hc
        simp only [List.mem_append, List.mem_cons] at hc
        rcases hc with hc | rfl | hc
        · rcases hline c hc with rfl | rfl <;> decide
        · decide
        · exact hb c hc
      refine ⟨hfeed, line ++ '\n' :: b, g, lines', hblank, hg, hend, hlast, hrest, ?_⟩
      rw [Text.terminated_cons, htext]
      simp
  | @entry b b' lines e' _ hb hb' hline hrest _ =>
      obtain ⟨rfl, rfl⟩ := List.cons.inj hall
      have hg : Blanks (b' ++ ['\n']) := hb'.append (by simp [Blanks, Json.isBlank])
      refine ⟨fun hmem => hline (by simp [hmem]), b, b' ++ ['\n'], lines, hb, hg, by simp, by simp,
        hrest, ?_⟩
      rw [Text.terminated_cons]
      simp

theorem Holds.blanks {lines : List (List Char)} (h : Holds lines []) : Blanks (terminated lines) := by
  generalize hall : ([] : List Entry) = all at h
  induction h with
  | nil => simp [terminated, Blanks]
  | @blank line lines _ hline _ ih =>
      rw [Text.terminated_cons]
      intro c hc
      simp only [List.mem_append, List.mem_cons] at hc
      rcases hc with hc | rfl | hc
      · rcases hline c hc with rfl | rfl <;> decide
      · decide
      · exact ih hall c hc
  | entry => cases hall

/-- The same of the text with its ends of lines unified, of which an unbroken text has none. -/
theorem Holds.exists_unified {lines : List (List Char)} {e : Entry} {entries : List Entry}
    (h : Holds lines (e :: entries)) (he : e.IsUnbroken) :
    '\n' ∉ e.text ∧ ∃ b g lines', Blanks b ∧ '\r' ∉ b ∧ Blanks g ∧ '\r' ∉ g ∧ '\n' ∈ g ∧
      Holds lines' entries ∧ unifyLineEnds (terminated lines) =
        b ++ (e.text ++ (g ++ unifyLineEnds (terminated lines'))) := by
  obtain ⟨hfeed, b, g, lines', hb, hg, hend, hlast, hrest, htext⟩ := h.exists_first
  have hnot : '\r' ∉ e.text := he '\r' (by simp)
  refine ⟨hfeed, unifyLineEnds b, unifyLineEnds g, lines', hb.unifyLineEnds,
    Text.return_not_mem_unifyLineEnds b, hg.unifyLineEnds, Text.return_not_mem_unifyLineEnds g,
    Text.feed_mem_unifyLineEnds hend, hrest, ?_⟩
  have hlastText : e.text.getLast? ≠ some '\r' := fun hmem => hnot (List.mem_of_getLast? hmem)
  rw [htext, Json.unifyLineEnds_append_writes e.writes, Text.unifyLineEnds_append (.inl hlastText),
    Text.unifyLineEnds_of_not_mem hnot, Text.unifyLineEnds_append (.inl hlast)]

theorem Holds.loads {lines : List (List Char)} {entries : List Entry} (h : Holds lines entries)
    (hunbroken : ∀ e ∈ entries, e.IsUnbroken) :
    Loads (unifyLineEnds (terminated lines)) (entries.map Entry.document) := by
  induction entries generalizing lines with
  | nil =>
      have hblank := loads_nil.append_blanks h.blanks.unifyLineEnds
        (Text.return_not_mem_unifyLineEnds _)
      simpa using hblank
  | cons e entries ih =>
      have he := hunbroken e List.mem_cons_self
      obtain ⟨hfeed, b, g, lines', hb, hb', hg, hg', hend, hrest, htext⟩ := h.exists_unified he
      have hloads := ih hrest fun e' he' => hunbroken e' (List.mem_cons_of_mem _ he')
      rw [htext]
      exact (hloads.entry (he.isLineBreak hfeed) hg hg' hend).append_blanks hb hb'

/-- The lines of two documents or more are no JSON text, for more follows the first one. -/
theorem Holds.readChars {lines : List (List Char)} {e e' : Entry} {entries : List Entry}
    (h : Holds lines (e :: e' :: entries)) (he : e.IsUnbroken) (he' : e'.IsUnbroken) :
    ∃ n, Json.readChars (unifyLineEnds (terminated lines)) =
      .error (.malformed .nothingMore n) := by
  obtain ⟨_, b, g, lines', hb, _, hg, _, hend, hrest, htext⟩ := h.exists_unified he
  obtain ⟨_, b₂, g₂, lines₂, hb₂, _, _, _, _, _, htext₂⟩ := hrest.exists_unified he'
  obtain ⟨c, g, rfl⟩ := List.exists_cons_of_ne_nil (List.ne_nil_of_mem hend)
  have hends : Json.Ends (c :: g ++ unifyLineEnds (terminated lines')) :=
    .of_isBlank _ (hg c List.mem_cons_self)
  have hchars := Json.readChars_of_writes hb e.writes hends
  have hskip : Json.skipBlanks (c :: g ++ unifyLineEnds (terminated lines')) =
      e'.text ++ (g₂ ++ unifyLineEnds (terminated lines₂)) := by
    rw [htext₂, ← List.append_assoc, Json.skipBlanks_of_writes (hg.append hb₂) e'.writes]
  obtain ⟨d, t, hstart, _⟩ := e'.writes.exists_cons
  rw [htext, hchars, hskip, if_neg (by simp [hstart])]
  exact ⟨_, rfl⟩

/-! ### Files -/

theorem ofFile_of_holdsText {files : Files} {homes : Homes} {path : String} {s : List Char}
    (h : HoldsText files homes path s) :
    ∃ p, Files.pathOf homes path = .ok p ∧ ofFile files homes path =
      (ofText (String.ofList (unifyLineEnds s))).mapError (.content p.text) := by
  obtain ⟨p, hpath, hbytes⟩ := h
  have hdecode : String.fromUTF8? (String.ofList s).toUTF8 = some (String.ofList s) := by
    unfold String.fromUTF8?
    split
    · rfl
    · rename_i hvalid
      exact absurd (String.ofList s).isValidUTF8 hvalid
  have htext : files.readText p = .ok (String.ofList (unifyLineEnds s)) := by
    rw [Files.readText, hbytes]
    simp only [bind, Except.bind, Text.ofBytes?, hdecode, Option.map_some, String.toList_ofList]
    rfl
  refine ⟨p, hpath, ?_⟩
  rw [ofFile, hpath]
  simp only [Except.mapError, bind, Except.bind, htext]

theorem ofText_of_holds {lines : List (List Char)} {entries : List Entry} (h : Holds lines entries)
    (htwo : 2 ≤ entries.length) (hunbroken : ∀ e ∈ entries, e.IsUnbroken) :
    ofText (String.ofList (unifyLineEnds (terminated lines))) =
      .ok (entries.map Entry.document) := by
  have hloads := h.loads hunbroken 1 [] Json.blanks_nil
  match entries, htwo with
  | e :: e' :: entries, _ =>
      obtain ⟨n, hchars⟩ := h.readChars (hunbroken e (by simp)) (hunbroken e' (by simp))
      rw [ofText, Json.read, String.toList_ofList, hchars]
      simp only [Except.mapError, Json.Fault.locate]
      rw [Text.lines, String.toList_ofList]
      exact hloads

theorem checked_of_documents (entries : List Entry) :
    checked (entries.map Entry.document) = .ok (entries.map Entry.document) := by
  have hall : ∀ v ∈ entries.map Entry.document, (!isObject v) = false := by
    intro v hv
    obtain ⟨e, _, rfl⟩ := List.mem_map.mp hv
    rfl
  rw [checked, List.findIdx?_eq_none_iff.mpr hall]

theorem ofText_of_isText {s : List Char} {v : Json.Value} {entries : List Entry} (h : IsText s v)
    (hlist : listOf v = .ok (entries.map Entry.document)) :
    ofText (String.ofList s) = .ok (entries.map Entry.document) := by
  rw [ofText, Json.read_of_isText h]
  simp only [hlist, Except.bind, checked_of_documents]

/-! ### Documents of one member -/

/-- The document of one member, written without blanks. -/
def Entry.ofMember {k name s : List Char} {v : Json.Value} (hk : Json.Content k name)
    (h : Writes s (.value v)) : Entry where
  text := Json.single k s
  members := [(String.ofList name, v)]
  writes := Json.writes_single hk h

/-- A document with a string that holds an accent and a blank. -/
def accented : Entry :=
  .ofMember (Json.content_self (s := ['a']) (by decide))
    (.string (Json.content_self (s := ['é', '\u00a0']) (by decide)))

/-- A document with a string that holds a line separator. -/
def separated : Entry :=
  .ofMember (Json.content_self (s := ['a']) (by decide))
    (.string (Json.content_self (s := ['x', '\u2028', 'y']) (by decide)))

/-- A document with an empty object. -/
def hollow : Entry :=
  .ofMember (Json.content_self (s := ['b']) (by decide)) (.emptyObject (b := []) Json.blanks_nil)

/-- One file, named `docs.jsonl`, that holds a text. -/
def oneFile (s : List Char) : Files :=
  ({} : Files).put ⟨false, ["docs.jsonl"]⟩ (.file (String.ofList s).toUTF8)

theorem holdsText_oneFile (s : List Char) :
    HoldsText (oneFile s) (fun _ => none) "docs.jsonl" s := ⟨⟨"", ["docs.jsonl"]⟩, rfl, rfl⟩

/-- A file of lines, each blank or a JSON text of the next of two documents or more, loads as the documents
if no text of theirs is broken by a character that ends a line.  So does a file of the array of the
documents, and one of the collection of them. -/
theorem ofFile_lines {lines : List (List Char)} {entries : List Entry} (h : Holds lines entries)
    (htwo : 2 ≤ entries.length) (hunbroken : ∀ e ∈ entries, e.IsUnbroken) :
    (∀ files homes path, HoldsText files homes path (terminated lines) →
      ofFile files homes path = .ok (entries.map Entry.document)) ∧
    (∀ files homes path s, IsText s (.array (entries.map Entry.document)) →
      HoldsText files homes path s →
      ofFile files homes path = .ok (entries.map Entry.document)) ∧
    ∀ files homes path s members, IsText s (.object members) →
      Json.Members.get members "type" = .string "FeatureCollection" →
      Json.Members.get members "features" = .array (entries.map Entry.document) →
      HoldsText files homes path s →
      ofFile files homes path = .ok (entries.map Entry.document) := by
  refine ⟨fun files homes path hfile => ?_, fun files homes path s hs hfile => ?_,
    fun files homes path s members hs htype hfeatures hfile => ?_⟩
  · obtain ⟨p, _, hload⟩ := ofFile_of_holdsText hfile
    rw [hload, ofText_of_holds h htwo hunbroken]
    rfl
  · obtain ⟨p, _, hload⟩ := ofFile_of_holdsText hfile
    rw [hload, ofText_of_isText hs.unifyLineEnds rfl]
    rfl
  · obtain ⟨p, _, hload⟩ := ofFile_of_holdsText hfile
    have hlist : listOf (.object members) = .ok (entries.map Entry.document) := by
      rw [listOf, if_pos htype, hfeatures]
    rw [hload, ofText_of_isText hs.unifyLineEnds hlist]
    rfl

/-- Documents with blanks around them, a carriage return among these, and a blank line between them. -/
theorem ofFile_lines_spaced :
    Holds [[' '] ++ (accented.text ++ ['\r']), ['\t', ' '], [] ++ (hollow.text ++ [])]
      [accented, hollow] ∧
    (∀ e ∈ [accented, hollow], e.IsUnbroken) ∧
    ofFile (oneFile (terminated
        [[' '] ++ (accented.text ++ ['\r']), ['\t', ' '], [] ++ (hollow.text ++ [])]))
      (fun _ => none) "docs.jsonl" = .ok [accented.document, hollow.document] := by
  have hblanks : ∀ b ∈ [[], [' '], ['\r']], Blanks b := by simp [Blanks, Json.isBlank]
  have hlines : Holds [[' '] ++ (accented.text ++ ['\r']), ['\t', ' '], [] ++ (hollow.text ++ [])]
      [accented, hollow] :=
    .entry (hblanks _ (by simp)) (hblanks _ (by simp)) (by decide)
      (.blank (Json.forall_mem_of_all (by decide))
        (.entry (hblanks _ (by simp)) (hblanks _ (by simp)) (by decide) .nil))
  have hunbroken : ∀ e ∈ [accented, hollow], e.IsUnbroken := by
    have haccented : accented.IsUnbroken := Json.forall_mem_of_all (by decide)
    have hhollow : hollow.IsUnbroken := Json.forall_mem_of_all (by decide)
    simp [haccented, hhollow]
  exact ⟨hlines, hunbroken, (ofFile_lines hlines (by decide) hunbroken).1 _ _ _ (holdsText_oneFile _)⟩

/-- Two documents, each on a line of its own, do not load: the separator ends the first line amid a
string. -/
theorem ofFile_separated :
    Holds [[] ++ (separated.text ++ []), [] ++ (hollow.text ++ [])] [separated, hollow] ∧
    ofFile (oneFile (terminated [[] ++ (separated.text ++ []), [] ++ (hollow.text ++ [])]))
      (fun _ => none) "docs.jsonl" =
      .error (.content "docs.jsonl" (.lineNotJson 1 (.malformed .closingQuote 1 6 5))) := by
  have hblank := Json.blanks_nil
  refine ⟨.entry hblank hblank (by decide) (.entry hblank hblank (by decide) .nil), ?_⟩
  obtain ⟨p, hpath, hload⟩ := ofFile_of_holdsText (holdsText_oneFile
    (terminated [[] ++ (separated.text ++ []), [] ++ (hollow.text ++ [])]))
  have hp : p = ⟨"", ["docs.jsonl"]⟩ := (Except.ok.inj hpath).symm
  have htext : ofText (String.ofList (unifyLineEnds
      (terminated [[] ++ (separated.text ++ []), [] ++ (hollow.text ++ [])]))) =
      .error (.lineNotJson 1 (.malformed .closingQuote 1 6 5)) := by cbv
  rw [hload, htext, hp]
  cbv

end Corpus

end GeoWorkload
