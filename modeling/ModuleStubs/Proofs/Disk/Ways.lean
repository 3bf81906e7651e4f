import ModuleStubs.Proofs.Disk.MakeDirectories

/-! The way to a directory. Making it changes nothing but what was missing on the way, and where a
path leads can be told from its components alone. -/

namespace ModuleStubs.Disk

variable {d e f : Disk} {p : Path} {l goal : Location}

def OnWay (d : Disk) (p : Path) (l : Location) : Prop :=
  ∃ parts, parts <+: p.parts ∧ d.find ⟨p.anchor, parts⟩ = .ok l

/-- Directories have been made where they were missing on the way, and nothing else is different. -/
structure Paves (p : Path) (d e : Disk) : Prop extends Keeps d e where
  writable : e.writable = d.writable
  item : ∀ l, e.item? l = d.item? l ∨
    d.item? l = none ∧ e.item? l = some .directory ∧ e.OnWay p l

theorem OnWay.mono (way : d.OnWay p l) (kept : Keeps d e) : e.OnWay p l := by
  obtain ⟨parts, above, found⟩ := way
  exact ⟨parts, above, find_of_keeps kept found⟩

theorem OnWay.of_parent (way : d.OnWay p.parent l) : d.OnWay p l := by
  obtain ⟨parts, above, found⟩ := way
  exact ⟨parts, above.trans (List.dropLast_prefix p.parts), found⟩

theorem Paves.refl (p : Path) (d : Disk) : Paves p d d := ⟨.refl d, rfl, fun _ => .inl rfl⟩

theorem Paves.trans (first : Paves p d e) (second : Paves p e f) : Paves p d f := by
  refine ⟨first.toKeeps.trans second.toKeeps, second.writable.trans first.writable, fun l => ?_⟩
  rcases second.item l with same | ⟨empty, made, way⟩
  · rcases first.item l with before | ⟨empty, made, way⟩
    · exact .inl (same.trans before)
    · exact .inr ⟨empty, same.trans made, way.mono second.toKeeps⟩
  · rcases first.item l with before | ⟨-, taken, -⟩
    · exact .inr ⟨before.symm.trans empty, made, way⟩
    · rw [empty] at taken
      cases taken

theorem Paves.of_parent (paved : Paves p.parent d e) : Paves p d e := by
  refine ⟨paved.toKeeps, paved.writable, fun l => ?_⟩
  rcases paved.item l with same | ⟨empty, made, way⟩
  · exact .inl same
  · exact .inr ⟨empty, made, way.of_parent⟩

theorem paves_makeDirectory (made : d.makeDirectory p = .ok e) : Paves p d e := by
  have grown : Grows none d e := grows_makeDirectory made
  obtain ⟨l, found, empty, -, rfl⟩ := makeDirectory_eq_ok made
  have apart : d.item? l ≠ some .directory := by rw [empty]; exact nofun
  refine ⟨grown.toKeeps, rfl, fun other => ?_⟩
  by_cases here : other = l
  · subst here
    refine .inr ⟨empty, item?_put_self (ne_nil_of_item? apart) _, p.parts, List.prefix_rfl, ?_⟩
    exact find_of_keeps grown.toKeeps found
  · exact .inl (item?_put_of_ne here _)

theorem paves_attempt (d : Disk) (p : Path) : Paves p d (d.attempt p).2 := by
  rw [attempt]
  cases made : d.makeDirectory p with
  | ok e => exact paves_makeDirectory made
  | error why => exact .refl p d

theorem paves_makeDirectories (d : Disk) (p : Path) : Paves p d (d.makeDirectories p).2 := by
  induction p using makeDirectories_induction d with
  | direct p direct =>
    rw [makeDirectories_eq_attempt direct]
    exact paves_attempt d p
  | above p lacks ih =>
    rw [makeDirectories_of_lacksParent lacks]
    rcases made : d.makeDirectories p.parent with ⟨_ | _, e⟩
    · rw [made] at ih
      exact ih.of_parent
    · rw [made] at ih
      exact ih.of_parent.trans (paves_attempt e p)

theorem paves_of_made {result : Except DiskFault Unit} (made : d.makeDirectories p = (result, e)) :
    Paves p d e := by
  have paved := paves_makeDirectories d p
  rwa [made] at paved

def follow (l : Location) (parts : List String) : Location :=
  parts.foldl (fun l part => if part = ".." then l.dropLast else l ++ [part]) l

theorem follow_append (l : Location) (first second : List String) :
    follow l (first ++ second) = follow (follow l first) second := List.foldl_append

theorem walk_eq_ok {parts : List String} (walked : d.walk l parts = .ok goal) :
    goal = follow l parts := by
  induction parts generalizing l with
  | nil =>
    cases walked
    rfl
  | cons part parts ih =>
    rw [walk] at walked
    rw [follow, List.foldl_cons]
    split at walked
    · cases walked
    · cases walked
    · split_ifs at walked with up long
      · rw [if_pos up]
        exact ih walked
      · rw [if_neg up]
        exact ih walked

/-- If a path leads anywhere, its components say where. -/
theorem eq_follow_of_find (found : d.find p = .ok l) : l = follow (d.start p) p.parts := by
  rw [find] at found
  split_ifs at found
  cases walked : d.walk (d.start p) p.parts with
  | error why =>
    rw [walked] at found
    cases found
  | ok goal =>
    rw [walked] at found
    cases found
    exact walk_eq_ok walked

theorem prefix_follow (l : Location) {parts : List String} (down : ".." ∉ parts) :
    l <+: follow l parts := by
  induction parts generalizing l with
  | nil => exact List.prefix_rfl
  | cons part parts ih =>
    have name : part ≠ ".." := fun same => down (same ▸ List.mem_cons_self)
    rw [follow, List.foldl_cons, if_neg name]
    exact (List.prefix_append l [part]).trans
      (ih (l ++ [part]) fun later => down (List.mem_cons_of_mem part later))

end ModuleStubs.Disk
