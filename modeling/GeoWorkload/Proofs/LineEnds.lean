import GeoWorkload.Proofs.JsonTexts
import GeoWorkload.Text.Lines

/-!
# Ends of lines

A text with its ends of lines unified (`Text.unifyLineEnds`) part by part, and the line that a text starts
with (`Text.linesFrom_append`).  Of the characters that end a line, a JSON text holds blanks and the three
beyond ASCII only (`Json.Allowed.mem_of_isLineBreak`).  It stays a text of the same value when its ends of
lines are unified (`Json.IsText.unifyLineEnds`), since those among its blanks stay blanks and its strings
hold no carriage return.
-/

namespace GeoWorkload

namespace Text

/-! ### Unified ends -/

theorem unifyLineEnds_cons {c : Char} (s : List Char) (hc : c ≠ '\r') :
    unifyLineEnds (c :: s) = c :: unifyLineEnds s := by
  rw [unifyLineEnds, if_neg hc]
  exact fun _ h _ => absurd h hc

theorem unifyLineEnds_return {s : List Char} (hs : s.head? ≠ some '\n') :
    unifyLineEnds ('\r' :: s) = '\n' :: unifyLineEnds s := by
  rw [unifyLineEnds, if_pos rfl]
  rintro rest _ rfl
  exact hs rfl

theorem unifyLineEnds_of_not_mem {s : List Char} (hs : '\r' ∉ s) : unifyLineEnds s = s := by
  induction s with
  | nil => rfl
  | cons c s ih =>
      simp only [List.mem_cons, not_or] at hs
      rw [unifyLineEnds_cons s (Ne.symm hs.1), ih hs.2]

/-- The ends of lines of two texts in turn are unified apart unless the two share one. -/
theorem unifyLineEnds_append {s t : List Char} (h : s.getLast? ≠ some '\r' ∨ t.head? ≠ some '\n') :
    unifyLineEnds (s ++ t) = unifyLineEnds s ++ unifyLineEnds t := by
  fun_induction unifyLineEnds s with
  | case1 => rfl
  | case2 rest ih =>
      have hrest : rest.getLast? ≠ some '\r' ∨ t.head? ≠ some '\n' := by
        refine h.imp_left fun hlast e => hlast ?_
        rw [List.getLast?_cons_cons, List.getLast?_cons, e]
        rfl
      rw [List.cons_append, List.cons_append, unifyLineEnds, ih hrest, List.cons_append]
  | case3 c rest hne ih =>
      have hrest : rest.getLast? ≠ some '\r' ∨ t.head? ≠ some '\n' := by
        refine h.imp_left fun hlast e => hlast ?_
        rw [List.getLast?_cons, e]
        rfl
      by_cases hc : c = '\r'
      · subst hc
        have hhead : (rest ++ t).head? ≠ some '\n' := by
          cases rest with
          | nil => exact h.resolve_left (by simp)
          | cons d rest =>
              intro e
              exact hne rest rfl (by simpa using e)
        rw [if_pos rfl, List.cons_append, unifyLineEnds_return hhead, ih hrest, List.cons_append]
      · rw [if_neg hc, List.cons_append, unifyLineEnds_cons _ hc, ih hrest, List.cons_append]

/-- Of the characters of a text the carriage returns go, and line feeds come for them. -/
theorem mem_unifyLineEnds_iff {s : List Char} {c : Char} :
    c ∈ unifyLineEnds s ↔ c ≠ '\r' ∧ (c ∈ s ∨ c = '\n' ∧ '\r' ∈ s) := by
  fun_induction unifyLineEnds s with
  | case1 => simp
  | case2 rest ih =>
      rw [List.mem_cons, ih]
      by_cases hreturn : c = '\r'
      · simp [hreturn]
      · by_cases hfeed : c = '\n' <;> simp [hreturn, hfeed]
  | case3 d rest _ ih =>
      rw [List.mem_cons, ih]
      by_cases hreturn : c = '\r'
      · by_cases hd : d = '\r'
        · simp [hreturn, hd]
        · simp [hreturn, hd, Ne.symm hd]
      · by_cases hd : d = '\r'
        · by_cases hfeed : c = '\n' <;> simp [hreturn, hfeed, hd]
        · simp [hreturn, hd, Ne.symm hd, or_assoc]

theorem return_not_mem_unifyLineEnds (s : List Char) : '\r' ∉ unifyLineEnds s := fun h =>
  (mem_unifyLineEnds_iff.mp h).1 rfl

theorem feed_mem_unifyLineEnds {s : List Char} (hs : '\n' ∈ s) : '\n' ∈ unifyLineEnds s :=
  mem_unifyLineEnds_iff.mpr ⟨by decide, .inl hs⟩

/-! ### Lines -/

/-- Characters that end no line go on with one. -/
theorem linesFrom_append {s : List Char} (hs : ∀ c ∈ s, isLineBreak c = false)
    (line rest : List Char) : linesFrom line (s ++ rest) = linesFrom (s.reverse ++ line) rest := by
  induction s generalizing line with
  | nil => rfl
  | cons c s ih =>
      have hc := hs c List.mem_cons_self
      have hreturn : c ≠ '\r' := by
        rintro rfl
        exact absurd hc (by decide)
      rw [List.cons_append, linesFrom, hc, if_neg Bool.false_ne_true,
        ih fun d hd => hs d (List.mem_cons_of_mem _ hd)]
      · simp
      · exact fun _ h _ => absurd h hreturn

theorem linesFrom_feed (line rest : List Char) :
    linesFrom line ('\n' :: rest) = line.reverse :: linesFrom [] rest := by
  rw [linesFrom, if_pos (by decide)]
  exact fun _ h _ => absurd h (by decide)

end Text

namespace Json

open Text

/-! ### The characters of JSON texts -/

theorem le_of_shortEscape? {e c : Char} (h : shortEscape? e = some c) : 0x20 ≤ e.toNat := by
  unfold shortEscape? at h
  split at h
  all_goals first
    | decide
    | cases h

theorem le_of_hexValue? {c : Char} {n : Nat} (h : Text.hexValue? c = some n) : 0x20 ≤ c.toNat := by
  have hle : ∀ d : Char, 0x20 ≤ d.toNat → d ≤ c → 0x20 ≤ c.toNat := fun d hd hdc =>
    Nat.le_trans hd hdc
  unfold Text.hexValue? at h
  split at h
  · rename_i hc
    exact hle '0' (by decide) hc.1
  · split at h
    · rename_i hc
      exact hle 'a' (by decide) hc.1
    · split at h
      · rename_i hc
        exact hle 'A' (by decide) hc.1
      · cases h

theorem le_of_unit? {a b c d : Char} {u : Nat} (h : unit? a b c d = some u) :
    0x20 ≤ a.toNat ∧ 0x20 ≤ b.toNat ∧ 0x20 ≤ c.toNat ∧ 0x20 ≤ d.toNat := by
  simp only [unit?, Option.bind_eq_bind, Option.bind_eq_some_iff] at h
  obtain ⟨_, ha, _, hb, _, hc, _, hd, _⟩ := h
  exact ⟨le_of_hexValue? ha, le_of_hexValue? hb, le_of_hexValue? hc, le_of_hexValue? hd⟩

/-- No control character stands between the quotes of a string. -/
theorem Content.le {s t : List Char} (h : Content s t) : ∀ c ∈ s, 0x20 ≤ c.toNat := by
  induction h with
  | nil => simp
  | plain _ _ hcontrol _ ih => simpa using ⟨hcontrol, ih⟩
  | escape he _ ih => simpa using ⟨le_of_shortEscape? he, ih⟩
  | unit hu _ _ ih =>
      obtain ⟨ha, hb, hc, hd⟩ := le_of_unit? hu
      simpa using ⟨ha, hb, hc, hd, ih⟩
  | pair hu hv _ _ _ ih =>
      obtain ⟨ha, hb, hc, hd⟩ := le_of_unit? hu
      obtain ⟨he, hf, hg, hh⟩ := le_of_unit? hv
      simpa using ⟨ha, hb, hc, hd, he, hf, hg, hh, ih⟩

theorem Content.return_not_mem {s t : List Char} (h : Content s t) : '\r' ∉ s := fun hmem =>
  absurd (h.le _ hmem) (by decide)

theorem Digits.le {ds : List Char} (h : Digits ds) : ∀ c ∈ ds, 0x20 ≤ c.toNat := by
  intro c hc
  have hdigit := h.2 c hc
  simp only [Char.isDigit, Bool.and_eq_true, decide_eq_true_eq] at hdigit
  exact Nat.le_trans (by decide) hdigit.1

theorem Fraction.le {f ds : List Char} (h : Fraction f ds) : ∀ c ∈ f, 0x20 ≤ c.toNat := by
  cases h with
  | absent => simp
  | digits hds => simpa using hds.le

theorem Exponent.le {e : List Char} {x : Int} (h : Exponent e x) : ∀ c ∈ e, 0x20 ≤ c.toNat := by
  have hletter : ∀ {e : Char}, e = 'e' ∨ e = 'E' → 0x20 ≤ e.toNat := by
    rintro e (rfl | rfl) <;> decide
  cases h with
  | absent => simp
  | unsigned he hds => simpa using ⟨hletter he, hds.le⟩
  | positive he hds => simpa using ⟨hletter he, hds.le⟩
  | negative he hds => simpa using ⟨hletter he, hds.le⟩

theorem Number.le {s : List Char} {v : Value} (h : Number s v) : ∀ c ∈ s, 0x20 ≤ c.toNat := by
  have hminus : ∀ negative, ∀ c ∈ minus negative, 0x20 ≤ c.toNat := by
    rintro (_ | _) <;> exact forall_mem_of_all (by decide)
  cases h with
  | int negative hds _ => exact List.forall_mem_append.mpr ⟨hminus negative, hds.1.le⟩
  | float negative hds hf he _ =>
      simp only [List.forall_mem_append]
      exact ⟨hminus negative, hds.1.le, hf.le, he.le⟩

/-- The characters may stand in a JSON text: no control character but blanks. -/
def Allowed (s : List Char) : Prop := ∀ c ∈ s, isBlank c = true ∨ 0x20 ≤ c.toNat

@[simp]
theorem allowed_nil : Allowed [] := by simp [Allowed]

@[simp]
theorem allowed_cons {c : Char} {s : List Char} :
    Allowed (c :: s) ↔ (isBlank c = true ∨ 0x20 ≤ c.toNat) ∧ Allowed s := by
  simp [Allowed]

@[simp]
theorem allowed_append {s t : List Char} : Allowed (s ++ t) ↔ Allowed s ∧ Allowed t := by
  simp [Allowed, or_imp, forall_and]

theorem Blanks.allowed {b : List Char} (hb : Blanks b) : Allowed b := fun c hc => .inl (hb c hc)

theorem Content.allowed {s t : List Char} (h : Content s t) : Allowed s := fun c hc =>
  .inr (h.le c hc)

theorem Writes.allowed {s : List Char} {part : Part} (h : Writes s part) : Allowed s := by
  induction h with
  | null => simp
  | yes => simp
  | no => simp
  | number h => exact fun c hc => .inr (h.le c hc)
  | string h => simp [h.allowed]
  | emptyArray hb => simp [hb.allowed]
  | array hb _ ih => simp [hb.allowed, ih]
  | emptyObject hb => simp [hb.allowed]
  | object hb _ ih => simp [hb.allowed, ih]
  | lastItem _ hb ih => simp [hb.allowed, ih]
  | item _ hb hb' _ ih ihrest => simp [hb.allowed, hb'.allowed, ih, ihrest]
  | member hk hb hb' _ ih => simp [hk.allowed, hb.allowed, hb'.allowed, ih]
  | lastMember _ hb ih => simp [hb.allowed, ih]
  | memberAnd _ hb hb' _ ih ihrest => simp [hb.allowed, hb'.allowed, ih, ihrest]

/-- Of the characters that end a line, a JSON text holds the two among its blanks and the three that its
strings may hold. -/
theorem Allowed.mem_of_isLineBreak {s : List Char} (h : Allowed s) {c : Char} (hc : c ∈ s)
    (hbreak : isLineBreak c = true) : c ∈ ['\n', '\r', '\u0085', '\u2028', '\u2029'] := by
  have hcode : ∀ d : Char, c.toNat = d.toNat → c = d := fun d e =>
    Char.ext (UInt32.toNat_inj.mp e)
  rcases h c hc with hblank | hle
  · simp only [isBlank, Bool.or_eq_true, decide_eq_true_eq] at hblank
    rcases hblank with ((rfl | rfl) | rfl) | rfl
    · exact absurd hbreak (by decide)
    · exact absurd hbreak (by decide)
    · decide
    · decide
  · have hcases : c.toNat = 0x85 ∨ c.toNat = 0x2028 ∨ c.toNat = 0x2029 := by
      simp only [isLineBreak, Bool.or_eq_true, Bool.and_eq_true, decide_eq_true_eq,
        beq_iff_eq] at hbreak
      omega
    rcases hcases with e | e | e
    · simp [hcode '\u0085' e]
    · simp [hcode '\u2028' e]
    · simp [hcode '\u2029' e]

/-! ### JSON texts with unified ends -/

theorem Blanks.append {s t : List Char} (hs : Blanks s) (ht : Blanks t) : Blanks (s ++ t) := by
  intro c hc
  exact (List.mem_append.mp hc).elim (hs c) (ht c)

theorem Blanks.unifyLineEnds {b : List Char} (hb : Blanks b) : Blanks (unifyLineEnds b) := by
  intro c hc
  rcases (Text.mem_unifyLineEnds_iff.mp hc).2 with hmem | ⟨rfl, _⟩
  · exact hb c hmem
  · decide

/-- A text of the part stays one when its ends of lines are unified, and the text of a value or of a
member does not end amid one. -/
structure Part.Unifies (part : Part) (s : List Char) : Prop where
  writes : Writes (Text.unifyLineEnds s) part
  last : (∀ vs, part ≠ .items vs) → (∀ ms, part ≠ .members ms) → s.getLast? ≠ some '\r'

theorem Part.Unifies.of_le {part : Part} {s : List Char} (h : Writes s part)
    (hs : ∀ c ∈ s, 0x20 ≤ c.toNat) : part.Unifies s := by
  have hnot : '\r' ∉ s := fun hmem => absurd (hs _ hmem) (by decide)
  refine ⟨by rwa [unifyLineEnds_of_not_mem hnot], fun _ _ e => hnot (List.mem_of_getLast? e)⟩

theorem Writes.head?_append_ne {s : List Char} {part : Part} (h : Writes s part) (t : List Char) :
    (s ++ t).head? ≠ some '\n' := by
  obtain ⟨c, u, rfl, hc⟩ := h.exists_cons
  simpa using hc.ne (d := '\n') (by decide) (by decide)

theorem unifyLineEnds_append_writes {b s t : List Char} {part : Part} (h : Writes s part) :
    Text.unifyLineEnds (b ++ (s ++ t)) = Text.unifyLineEnds b ++ Text.unifyLineEnds (s ++ t) :=
  unifyLineEnds_append (.inr (h.head?_append_ne t))

theorem unifyLineEnds_append_written {b s : List Char} {part : Part} (h : Writes s part) :
    Text.unifyLineEnds (b ++ s) = Text.unifyLineEnds b ++ Text.unifyLineEnds s := by
  have happend := unifyLineEnds_append_writes (b := b) (t := []) h
  rwa [List.append_nil] at happend

theorem unifyLineEnds_append_cons {b : List Char} {c : Char} (t : List Char) (hc : c ≠ '\r')
    (hfeed : c ≠ '\n') :
    Text.unifyLineEnds (b ++ c :: t) = Text.unifyLineEnds b ++ c :: Text.unifyLineEnds t := by
  rw [unifyLineEnds_append (.inr (by simpa using hfeed)), unifyLineEnds_cons t hc]

theorem Writes.unifies {s : List Char} {part : Part} (h : Writes s part) : part.Unifies s := by
  -- A feed that follows a return could join it across two parts; none does, since what follows blanks
  -- starts no line end, and what precedes them does not end in a return.
  induction h with
  | null => exact .of_le .null (forall_mem_of_all (by decide))
  | yes => exact .of_le .yes (forall_mem_of_all (by decide))
  | no => exact .of_le .no (forall_mem_of_all (by decide))
  | number h => exact .of_le (.number h) h.le
  | string h =>
      refine .of_le (.string h) ?_
      simp only [List.forall_mem_cons, List.forall_mem_append]
      exact ⟨by decide, h.le, by decide, by simp⟩
  | emptyArray hb =>
      refine ⟨?_, by simp [List.getLast?_cons]⟩
      rw [unifyLineEnds_cons _ (by decide), unifyLineEnds_append_cons _ (by decide) (by decide)]
      exact .emptyArray hb.unifyLineEnds
  | array hb h ih =>
      refine ⟨?_, by simp [List.getLast?_cons, List.getLast?_append]⟩
      rw [unifyLineEnds_cons _ (by decide), unifyLineEnds_append_writes h,
        unifyLineEnds_append_cons _ (by decide) (by decide)]
      exact .array hb.unifyLineEnds ih.writes
  | emptyObject hb =>
      refine ⟨?_, by simp [List.getLast?_cons]⟩
      rw [unifyLineEnds_cons _ (by decide), unifyLineEnds_append_cons _ (by decide) (by decide)]
      exact .emptyObject hb.unifyLineEnds
  | object hb h ih =>
      refine ⟨?_, by simp [List.getLast?_cons, List.getLast?_append]⟩
      rw [unifyLineEnds_cons _ (by decide), unifyLineEnds_append_writes h,
        unifyLineEnds_append_cons _ (by decide) (by decide)]
      exact .object hb.unifyLineEnds ih.writes
  | lastItem h hb ih =>
      refine ⟨?_, fun hitems => absurd rfl (hitems _)⟩
      rw [unifyLineEnds_append (.inl (ih.last (by simp) (by simp)))]
      exact .lastItem ih.writes hb.unifyLineEnds
  | item h hb hb' hrest ih ihrest =>
      refine ⟨?_, fun hitems => absurd rfl (hitems _)⟩
      rw [unifyLineEnds_append (.inl (ih.last (by simp) (by simp))),
        unifyLineEnds_append_cons _ (by decide) (by decide), unifyLineEnds_append_written hrest]
      exact .item ih.writes hb.unifyLineEnds hb'.unifyLineEnds ihrest.writes
  | @member k name b b' s v hk hb hb' h ih =>
      refine ⟨?_, fun _ _ => ?_⟩
      · rw [unifyLineEnds_cons _ (by decide), unifyLineEnds_append_cons _ (by decide) (by decide),
          unifyLineEnds_of_not_mem hk.return_not_mem, unifyLineEnds_append_cons _ (by decide) (by decide),
          unifyLineEnds_append_written h]
        exact .member hk hb.unifyLineEnds hb'.unifyLineEnds ih.writes
      · -- a member ends with its value
        have hlast := ih.last (by simp) (by simp)
        obtain ⟨c, t, rfl, _⟩ := h.exists_cons
        simpa [List.getLast?_cons, List.getLast?_append] using hlast
  | lastMember h hb ih =>
      refine ⟨?_, fun _ hmembers => absurd rfl (hmembers _)⟩
      rw [unifyLineEnds_append (.inl (ih.last (by simp) (by simp)))]
      exact .lastMember ih.writes hb.unifyLineEnds
  | memberAnd h hb hb' hrest ih ihrest =>
      refine ⟨?_, fun _ hmembers => absurd rfl (hmembers _)⟩
      rw [unifyLineEnds_append (.inl (ih.last (by simp) (by simp))),
        unifyLineEnds_append_cons _ (by decide) (by decide), unifyLineEnds_append_written hrest]
      exact .memberAnd ih.writes hb.unifyLineEnds hb'.unifyLineEnds ihrest.writes

/-- A text of a value stays one when its ends of lines are unified. -/
theorem IsText.unifyLineEnds {s : List Char} {v : Value} (h : IsText s v) :
    IsText (Text.unifyLineEnds s) v := by
  obtain ⟨b, t, b', rfl, hb, ht, hb'⟩ := h
  have hunified := ht.unifies
  refine ⟨Text.unifyLineEnds b, Text.unifyLineEnds t, Text.unifyLineEnds b', ?_,
    hb.unifyLineEnds, hunified.writes, hb'.unifyLineEnds⟩
  rw [unifyLineEnds_append_writes ht, unifyLineEnds_append (.inl (hunified.last (by simp) (by simp)))]

end Json

end GeoWorkload
