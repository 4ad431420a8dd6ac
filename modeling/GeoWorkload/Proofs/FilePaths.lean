import GeoWorkload.Files

/-!
# Paths that lead to files

Places are told apart by their comparison, and so a node that is put at a place is found there and nothing else
changes (`Files.at?_put`).  A path that leads to a file (`Files.Leads`) goes on leading to it while files
are added to and made, since only directories lead on and none of them becomes a file
(`FileChange.leads_append`).  A path that was opened for adding leads to a file and can be added to.
-/

namespace GeoWorkload

/-! ### Changes that may fail -/

section

variable {ε σ α β : Type} {x : ExceptT ε (StateM σ) α} {s s' : σ}

theorem run_bind_of_ok {a : α} (h : x.run.run s = (.ok a, s')) (f : α → ExceptT ε (StateM σ) β) :
    (x >>= f).run.run s = (f a).run.run s' := by
  show (ExceptT.bindCont f (x.run.run s).1).run (x.run.run s).2 = _
  rw [h]
  rfl

theorem run_bind_of_error {e : ε} (h : x.run.run s = (.error e, s')) (f : α → ExceptT ε (StateM σ) β) :
    (x >>= f).run.run s = (.error e, s') := by
  show (ExceptT.bindCont f (x.run.run s).1).run (x.run.run s).2 = _
  rw [h]
  rfl

end

namespace Place

theorem compare_eq_compareLex : (compare : Place → Place → Ordering) =
    compareLex (compareOn isAbsolute) (compareOn names) := by
  funext p q
  show instOrdPlace.ord p q = _
  obtain ⟨a, ns⟩ := p
  obtain ⟨b, ms⟩ := q
  simp [instOrdPlace.ord, compareLex, compareOn]

instance : Std.TransCmp (compare : Place → Place → Ordering) := by
  rw [compare_eq_compareLex]
  infer_instance

instance : Std.LawfulEqCmp (compare : Place → Place → Ordering) where
  compare_self := Std.ReflCmp.compare_self
  eq_of_compare {p q} h := by
    rw [compare_eq_compareLex] at h
    obtain ⟨a, ns⟩ := p
    obtain ⟨b, ms⟩ := q
    simpa [compareLex, compareOn, Ordering.then_eq_eq] using h

end Place

namespace Files

variable {fs : Files} {p : Path}

theorem at?_of_isTop {place : Place} (h : place.isTop = true) (fs : Files) :
    fs.at? place = some .directory := by
  rw [at?, if_pos h]

/-- What stands at places once a node was put at one below the top. -/
theorem at?_put {place : Place} (h : place.isTop = false) (fs : Files) (node : FileNode) (other : Place) :
    (fs.put place node).at? other = if place = other then some node else fs.at? other := by
  by_cases hother : other.isTop = true
  · have hne : place ≠ other := by
      rintro rfl
      rw [h] at hother
      cases hother
    rw [at?_of_isTop hother, if_neg hne, at?_of_isTop hother]
  · simp [at?, hother, put, Std.TreeMap.getElem?_insert]

/-- A file put where there is no directory leaves what other places hold. -/
theorem at?_put_of_ne_directory {place : Place} (h : fs.at? place ≠ some .directory) (bytes : ByteArray)
    (other : Place) :
    (fs.put place (.file bytes)).at? other = if place = other then some (.file bytes) else fs.at? other := by
  refine at?_put (Bool.eq_false_iff.mpr fun htop => ?_) fs _ other
  exact h (at?_of_isTop htop fs)

/-- Only directories lead on, so a file that is put where there is none does not bear on where names lead. -/
theorem walk_put {place : Place} (h : fs.at? place ≠ some .directory) (bytes : ByteArray) {path : String}
    {start goal : Place} {names : List String} (hwalk : fs.walk path start names = .ok goal) :
    (fs.put place (.file bytes)).walk path start names = .ok goal := by
  induction names generalizing start with
  | nil => exact hwalk
  | cons name rest ih =>
      unfold walk at hwalk ⊢
      split at hwalk
      · rename_i hdirectory
        have hne : place ≠ start := by
          rintro rfl
          exact h hdirectory
        rw [at?_put_of_ne_directory h, if_neg hne, hdirectory]
        dsimp only
        split at hwalk
        · cases hwalk
        · rename_i hshort
          rw [if_neg hshort]
          exact ih hwalk
      · cases hwalk
      · cases hwalk

/-- The path leads to a file. -/
def Leads (fs : Files) (p : Path) : Prop :=
  ∃ place bytes, fs.placeOf p = .ok place ∧ fs.at? place = some (.file bytes)

theorem placeOf_put {place goal : Place} (h : fs.at? place ≠ some .directory) (bytes : ByteArray)
    (hplace : fs.placeOf p = .ok goal) : (fs.put place (.file bytes)).placeOf p = .ok goal := by
  unfold placeOf at hplace ⊢
  cases hcheck : checkPath p with
  | error e =>
      rw [hcheck] at hplace
      cases hplace
  | ok u =>
      rw [hcheck] at hplace
      exact walk_put h bytes hplace

theorem Leads.put (hp : fs.Leads p) {place : Place} (h : fs.at? place ≠ some .directory)
    (bytes : ByteArray) : (fs.put place (.file bytes)).Leads p := by
  obtain ⟨goal, old, hplace, hgoal⟩ := hp
  by_cases hsame : place = goal
  · exact ⟨goal, bytes, placeOf_put h bytes hplace, by rw [at?_put_of_ne_directory h, if_pos hsame]⟩
  · exact ⟨goal, old, placeOf_put h bytes hplace, by rw [at?_put_of_ne_directory h, if_neg hsame, hgoal]⟩

end Files

namespace FileChange

variable {fs fs' : Files} {p q : Path} {bytes : ByteArray}

/-- Adding to a file fails and changes nothing, or it puts a file where there is no directory. -/
theorem append_cases (fs : Files) (p : Path) (bytes : ByteArray) :
    (∃ fault, (append p bytes).run.run fs = (.error fault, fs) ∧ ¬ fs.Leads p) ∨
      ∃ place added, fs.placeOf p = .ok place ∧ fs.at? place ≠ some .directory ∧
        (append p bytes).run.run fs = (.ok (), fs.put place (.file added)) := by
  have hrun : (append p bytes).run.run fs = (ofExcept (fs.placeOf p) >>= _ : FileChange Unit).run.run fs := rfl
  rw [hrun]
  rcases hplace : fs.placeOf p with fault | place
  · refine Or.inl ⟨fault, run_bind_of_error rfl _, ?_⟩
    rintro ⟨place, _, h, _⟩
    rw [hplace] at h
    cases h
  · have hgoal : (ofExcept (.ok place) : FileChange Place).run.run fs = (.ok place, fs) := rfl
    rw [run_bind_of_ok hgoal]
    rcases hnode : fs.at? place with _ | ⟨old | _⟩
    · exact Or.inr ⟨place, bytes, rfl, by simp [hnode], rfl⟩
    · exact Or.inr ⟨place, old ++ bytes, rfl, by simp [hnode], rfl⟩
    · refine Or.inl ⟨_, rfl, ?_⟩
      rintro ⟨place', _, h, hfile⟩
      rw [hplace] at h
      cases h
      rw [hnode] at hfile
      cases hfile

/-- Adding to a file goes on leading to it, and to every file that was led to before. -/
theorem leads_append (hq : fs.Leads q) (p : Path) (bytes : ByteArray) :
    ((append p bytes).run.run fs).2.Leads q := by
  rcases append_cases fs p bytes with ⟨fault, hrun, _⟩ | ⟨place, added, _, hplace, hrun⟩
  · rw [hrun]
    exact hq
  · rw [hrun]
    exact hq.put hplace added

/-- A path that leads to a file can be added to. -/
theorem append_of_leads (hp : fs.Leads p) (bytes : ByteArray) :
    ∃ fs', (append p bytes).run.run fs = (.ok (), fs') := by
  rcases append_cases fs p bytes with ⟨fault, _, hnot⟩ | ⟨place, added, _, _, hrun⟩
  · exact absurd hp hnot
  · exact ⟨_, hrun⟩

theorem leads_of_append (h : (append p bytes).run.run fs = (.ok (), fs')) : fs'.Leads p := by
  rcases append_cases fs p bytes with ⟨fault, hrun, _⟩ | ⟨place, added, hgoal, hplace, hrun⟩
  · rw [h] at hrun
    cases hrun
  · rw [h] at hrun
    cases hrun
    refine ⟨place, added, Files.placeOf_put hplace added hgoal, ?_⟩
    rw [Files.at?_put_of_ne_directory hplace, if_pos rfl]

/-- A path that was opened for adding leads to a file. -/
theorem leads_of_openToAppend (h : (openToAppend p).run.run fs = (.ok (), fs')) : fs'.Leads p := by
  unfold openToAppend at h
  rcases hparent : (makeDirectories p.parent).run.run fs with ⟨fault | _, fs₁⟩
  · rw [run_bind_of_error hparent] at h
    cases h
  · rw [run_bind_of_ok hparent] at h
    exact leads_of_append h

end FileChange

end GeoWorkload
