import ModuleStubs.Proofs.Disk.Alike

/-! Making a directory with all above it. Once it has been tried, trying it again changes
nothing: there is the directory, or what has been in the way still is. -/

namespace ModuleStubs

namespace Disk

section

variable {log : Option Location} {d e f : Disk}

theorem makeDirectory_of_find {p : Path} {l : Location} (found : d.find p = .ok l) :
    d.makeDirectory p =
      if (d.item? l).isSome then .error (.refused .alreadyThere p.text)
      else if d.writable l then .ok (d.put l .directory)
      else .error (.refused .denied p.text) := by
  rw [makeDirectory, found]
  rfl

theorem makeDirectory_of_find_error {p : Path} {why : DiskFault} (lost : d.find p = .error why) :
    d.makeDirectory p = .error why := by
  rw [makeDirectory, lost]
  rfl

theorem makeDirectory_eq_ok {p : Path} (made : d.makeDirectory p = .ok e) :
    ∃ l, d.find p = .ok l ∧ d.item? l = none ∧ d.writable l = true ∧ e = d.put l .directory := by
  cases found : d.find p with
  | error why =>
    rw [makeDirectory_of_find_error found] at made
    cases made
  | ok l =>
    rw [makeDirectory_of_find found] at made
    split_ifs at made with taken allowed
    cases made
    exact ⟨l, rfl, Option.not_isSome_iff_eq_none.mp taken, allowed, rfl⟩

theorem Relogged.makeDirectory_error (h : Relogged log d e) {p : Path} {why : DiskFault}
    (failed : d.makeDirectory p = .error why) : e.makeDirectory p = .error why := by
  cases found : d.find p with
  | error why =>
    rw [makeDirectory_of_find_error found] at failed
    rw [makeDirectory_of_find_error ((h.find p).trans found), failed]
  | ok l =>
    have taken : (e.item? l).isSome = (d.item? l).isSome := by
      simpa only [Option.isSome_map] using congrArg Option.isSome (h.kind l)
    rw [makeDirectory_of_find found] at failed
    rw [makeDirectory_of_find ((h.find p).trans found), taken, h.writable]
    split_ifs at failed ⊢
    · exact failed
    · exact failed

theorem Relogged.makeDirectory_ok (h : Relogged log d e) {p : Path} {d' : Disk}
    (made : d.makeDirectory p = .ok d') :
    ∃ e', e.makeDirectory p = .ok e' ∧ Relogged log d' e' := by
  cases again : e.makeDirectory p with
  | error why =>
    rw [h.symm.makeDirectory_error again] at made
    cases made
  | ok e' =>
    obtain ⟨l, found, -, -, rfl⟩ := makeDirectory_eq_ok made
    obtain ⟨l', found', -, -, rfl⟩ := makeDirectory_eq_ok again
    rw [h.find, found] at found'
    cases found'
    exact ⟨_, rfl, h.put l .directory⟩

theorem find_of_missing {p : Path} {subject : String}
    (missing : d.makeDirectory p = .error (.refused .missing subject)) :
    d.find p = .error (.refused .missing subject) := by
  cases found : d.find p with
  | error why =>
    have same := (makeDirectory_of_find_error found).symm.trans missing
    cases same
    rfl
  | ok l =>
    rw [makeDirectory_of_find found] at missing
    split_ifs at missing <;> cases missing

theorem excuse_of_missing {p : Path} {subject : String}
    (missing : d.makeDirectory p = .error (.refused .missing subject)) :
    d.excuse p (.refused .missing subject) = .error (.refused .missing subject) := by
  have absent : d.isDirectory p = .ok false := by
    rw [Disk.isDirectory, check, stat, find_of_missing missing]
    rfl
  simp only [Disk.excuse, absent]
  rfl

/-- The last step of making directories, with all above in place. -/
def attempt (d : Disk) (p : Path) : Except DiskFault Unit × Disk :=
  match d.makeDirectory p with
  | .ok d => (.ok (), d)
  | .error why => (d.excuse p why, d)

def LacksParent (d : Disk) (p : Path) : Prop :=
  p.parts ≠ [] ∧ ∃ subject, d.makeDirectory p = .error (.refused .missing subject)

theorem makeDirectories_eq_attempt {p : Path} (direct : ¬ d.LacksParent p) :
    d.makeDirectories p = d.attempt p := by
  rw [attempt]
  fun_cases Disk.makeDirectories d p with
  | case1 e made => rw [made]
  | case2 subject missing top => simp only [missing, excuse_of_missing missing]
  | case7 why other failed => rw [failed]
  | _ subject missing inner => exact absurd ⟨inner, subject, missing⟩ direct

theorem makeDirectories_of_lacksParent {p : Path} (lacks : d.LacksParent p) :
    d.makeDirectories p =
      match d.makeDirectories p.parent with
      | (.error why, e) => (.error why, e)
      | (.ok _, e) => e.attempt p := by
  obtain ⟨inner, subject, missing⟩ := lacks
  fun_cases Disk.makeDirectories d p with
  | case1 e made => exact nomatch missing.symm.trans made
  | case2 _ _ top => exact absurd top inner
  | case3 _ _ _ why e above => rw [above]
  | case4 _ _ _ done e above f made =>
    rw [above]
    simp only [attempt, made]
  | case5 _ _ _ done e above other failed =>
    rw [above]
    simp only [attempt, failed, excuse_of_missing failed]
  | case6 _ _ _ done e above why other failed =>
    rw [above]
    simp only [attempt, failed]
  | case7 why other failed =>
    rw [missing, Except.error.injEq] at failed
    exact (other subject failed.symm).elim

/-- Directories are made from above. -/
theorem makeDirectories_induction {motive : Path → Prop} (d : Disk)
    (direct : ∀ p, ¬ d.LacksParent p → motive p)
    (above : ∀ p, d.LacksParent p → motive p.parent → motive p) (p : Path) : motive p := by
  by_cases lacks : d.LacksParent p
  · have shorter : p.parent.parts.length < p.parts.length := by
      rw [Path.parent, List.length_dropLast]
      have := List.length_pos_iff.mpr lacks.1
      omega
    exact above p lacks (makeDirectories_induction d direct above p.parent)
  · exact direct p lacks
termination_by p.parts.length

theorem Relogged.lacksParent (h : Relogged log d e) {p : Path} :
    e.LacksParent p ↔ d.LacksParent p := by
  constructor
  · rintro ⟨inner, subject, missing⟩
    exact ⟨inner, subject, h.symm.makeDirectory_error missing⟩
  · rintro ⟨inner, subject, missing⟩
    exact ⟨inner, subject, h.makeDirectory_error missing⟩

theorem Relogged.attempt (h : Relogged log d e) (p : Path) :
    (e.attempt p).1 = (d.attempt p).1 ∧ Relogged log (d.attempt p).2 (e.attempt p).2 := by
  cases made : d.makeDirectory p with
  | ok d' =>
    obtain ⟨e', again, same⟩ := h.makeDirectory_ok made
    rw [Disk.attempt, Disk.attempt, made, again]
    exact ⟨rfl, same⟩
  | error why =>
    rw [Disk.attempt, Disk.attempt, made, h.makeDirectory_error made]
    exact ⟨h.excuse p why, h⟩

/-- On disks with the same directories and files, directories are made in the same way. -/
theorem Relogged.makeDirectories (h : Relogged log d e) (p : Path) :
    (e.makeDirectories p).1 = (d.makeDirectories p).1 ∧
      Relogged log (d.makeDirectories p).2 (e.makeDirectories p).2 := by
  induction p using makeDirectories_induction d generalizing e with
  | direct p direct =>
    rw [makeDirectories_eq_attempt direct, makeDirectories_eq_attempt (direct ∘ h.lacksParent.mp)]
    exact h.attempt p
  | above p lacks ih =>
    obtain ⟨result, same⟩ := ih h
    rw [makeDirectories_of_lacksParent lacks,
      makeDirectories_of_lacksParent (h.lacksParent.mpr lacks)]
    rcases first : d.makeDirectories p.parent with ⟨_ | _, d'⟩ <;>
      rcases second : e.makeDirectories p.parent with ⟨_ | _, e'⟩ <;>
      rw [first, second] at result same
    · exact ⟨result, same⟩
    · cases result
    · cases result
    · exact same.attempt p

def HasDirectory (d : Disk) (p : Path) : Prop :=
  ∃ l, d.find p = .ok l ∧ d.item? l = some .directory

theorem HasDirectory.mono {p : Path} (has : HasDirectory d p) (kept : Keeps d e) :
    HasDirectory e p := by
  obtain ⟨l, found, directory⟩ := has
  exact ⟨l, find_of_keeps kept found, kept.directory l directory⟩

theorem isDirectory_eq_true_iff {p : Path} : d.isDirectory p = .ok true ↔ HasDirectory d p := by
  rw [Disk.isDirectory, check_eq_true_iff]
  constructor
  · rintro ⟨l, x, found, there, holds⟩
    exact ⟨l, found, of_decide_eq_true holds ▸ there⟩
  · rintro ⟨l, found, directory⟩
    exact ⟨l, .directory, found, directory, rfl⟩

theorem excuse_eq_ok {p : Path} {why : DiskFault} (excused : d.excuse p why = .ok ()) :
    HasDirectory d p := by
  cases why with
  | nullCharacter => cases excused
  | refused why subject =>
    rw [← isDirectory_eq_true_iff]
    simp only [Disk.excuse] at excused
    cases known : d.isDirectory p with
    | error fault =>
      rw [known] at excused
      cases excused
    | ok answer =>
      rw [known] at excused
      cases answer with
      | false => cases excused
      | true => rfl

theorem hasDirectory_of_attempt {p : Path} (made : d.attempt p = (.ok (), e)) :
    HasDirectory e p := by
  rw [Disk.attempt] at made
  split at made
  · next f step =>
    cases made
    have grown : Grows none d e := grows_makeDirectory step
    obtain ⟨l, found, empty, -, rfl⟩ := makeDirectory_eq_ok step
    have apart : d.item? l ≠ some .directory := by rw [empty]; exact nofun
    exact ⟨l, find_of_keeps grown.toKeeps found, item?_put_self (ne_nil_of_item? apart) _⟩
  · next why failed =>
    obtain ⟨excused, rfl⟩ := Prod.mk.inj made
    exact excuse_eq_ok excused

theorem attempt_eq_error {p : Path} {why : DiskFault} (failed : d.attempt p = (.error why, e)) :
    e = d := by
  rw [Disk.attempt] at failed
  split at failed
  · cases failed
  · exact (Prod.mk.inj failed).2.symm

theorem hasDirectory_of_makeDirectories {p : Path} (made : d.makeDirectories p = (.ok (), e)) :
    HasDirectory e p := by
  by_cases lacks : d.LacksParent p
  · rw [makeDirectories_of_lacksParent lacks] at made
    split at made
    · cases made
    · exact hasDirectory_of_attempt made
  · rw [makeDirectories_eq_attempt lacks] at made
    exact hasDirectory_of_attempt made

theorem HasDirectory.makeDirectories {p : Path} (has : HasDirectory d p) :
    d.makeDirectories p = (.ok (), d) := by
  obtain ⟨l, found, directory⟩ := has
  have taken : d.makeDirectory p = .error (.refused .alreadyThere p.text) := by
    rw [makeDirectory_of_find found, directory]
    rfl
  have direct : ¬ d.LacksParent p := fun ⟨_, _, missing⟩ => nomatch taken.symm.trans missing
  have known : d.isDirectory p = .ok true := isDirectory_eq_true_iff.mpr ⟨l, found, directory⟩
  rw [makeDirectories_eq_attempt direct, Disk.attempt, taken]
  simp only [Disk.excuse, known]
  rfl

theorem byteLength_append (a b : String) : byteLength (a ++ b) = byteLength a + byteLength b := by
  rw [byteLength, String.toList_append, Text.Utf8.encode_append, List.length_append]
  rfl

theorem byteLength_join_dropLast (parts : List String) :
    byteLength (Text.join "/" parts.dropLast) ≤ byteLength (Text.join "/" parts) := by
  have join_cons : ∀ part second rest, Text.join "/" (part :: second :: rest) =
      part ++ "/" ++ Text.join "/" (second :: rest) :=
    fun _ _ _ => String.intercalate_cons_cons
  induction parts with
  | nil => exact Nat.le_refl _
  | cons part parts ih =>
    cases parts with
    | nil => exact Nat.zero_le _
    | cons second rest =>
      rw [List.dropLast_cons_of_ne_nil (List.cons_ne_nil second rest), join_cons,
        byteLength_append]
      cases shorter : (second :: rest).dropLast with
      | nil =>
        rw [Text.join, String.intercalate_singleton, byteLength_append]
        omega
      | cons third others =>
        rw [shorter] at ih
        rw [join_cons, byteLength_append]
        omega

theorem byteLength_parent (p : Path) : byteLength p.parent.text ≤ max 1 (byteLength p.text) := by
  have shorter := byteLength_join_dropLast p.parts
  by_cases top : p.anchor = .relative ∧ p.parts.dropLast = []
  · have dot : p.parent.text = "." := if_pos top
    rw [dot]
    exact Nat.le_max_left _ _
  · have above : p.parent.text = p.anchor.text ++ Text.join "/" p.parts.dropLast := if_neg top
    have inner : ¬ (p.anchor = .relative ∧ p.parts = []) := by
      rintro ⟨relative, empty⟩
      exact top ⟨relative, by rw [empty]; rfl⟩
    rw [above, Path.text, if_neg inner, byteLength_append, byteLength_append]
    omega

theorem hasNull_parent {p : Path} (clean : hasNull p = false) : hasNull p.parent = false := by
  rw [hasNull, List.any_eq_false] at clean ⊢
  exact fun part mem => clean part (List.dropLast_subset _ mem)

theorem walk_dropLast {parts : List String} {l goal : Location} (inner : parts ≠ [])
    (walked : d.walk l parts = .ok goal) :
    ∃ above, d.walk l parts.dropLast = .ok above ∧ d.item? above = some .directory := by
  induction parts generalizing l with
  | nil => exact absurd rfl inner
  | cons part parts ih =>
    have way := walked
    rw [Disk.walk] at way
    split at way
    · cases way
    · cases way
    · next directory =>
      cases parts with
      | nil => exact ⟨l, rfl, directory⟩
      | cons second rest =>
        rw [List.dropLast_cons_of_ne_nil (List.cons_ne_nil second rest), Disk.walk, directory]
        dsimp only
        split_ifs at way ⊢
        · exact ih (List.cons_ne_nil second rest) way
        · exact ih (List.cons_ne_nil second rest) way

theorem hasDirectory_parent {p : Path} {l : Location} (found : d.find p = .ok l)
    (inner : p.parts ≠ []) : HasDirectory d p.parent := by
  rw [Disk.find] at found
  split_ifs at found with null long
  cases walked : d.walk (d.start p) p.parts with
  | error why =>
    rw [walked] at found
    cases found
  | ok goal =>
    obtain ⟨above, way, directory⟩ := walk_dropLast inner walked
    refine ⟨above, ?_, directory⟩
    have clean := hasNull_parent (Bool.eq_false_iff.mpr null)
    have short : ¬ maxPathBytes < byteLength p.parent.text := by
      have bound := byteLength_parent p
      have room : 1 ≤ maxPathBytes := by decide
      omega
    have way' : d.walk (d.start p.parent) p.parent.parts = .ok above := way
    rw [Disk.find, clean, if_neg Bool.false_ne_true, if_neg short, way']
    rfl

theorem attempt_of_lost {p : Path} (lost : ∀ l, d.find p ≠ .ok l) :
    ∃ why, d.attempt p = (.error why, d) := by
  rw [Disk.attempt]
  cases made : d.makeDirectory p with
  | ok e =>
    obtain ⟨l, found, -⟩ := makeDirectory_eq_ok made
    exact absurd found (lost l)
  | error why =>
    cases excused : d.excuse p why with
    | error fault => exact ⟨fault, by simp only [excused]⟩
    | ok _ =>
      obtain ⟨l, found, -⟩ := excuse_eq_ok excused
      exact absurd found (lost l)

/-- What has kept a directory from being made still does so when all is tried again. -/
theorem makeDirectories_again {p : Path} {why : DiskFault}
    (failed : d.makeDirectories p = (.error why, e)) :
    ∃ again, e.makeDirectories p = (.error again, e) := by
  induction p using makeDirectories_induction d generalizing e why with
  | direct p direct =>
    have failed' := failed
    rw [makeDirectories_eq_attempt direct] at failed'
    have same := attempt_eq_error failed'
    subst same
    exact ⟨why, failed⟩
  | above p lacks ih =>
    rw [makeDirectories_of_lacksParent lacks] at failed
    split at failed
    · next fault f above =>
      obtain ⟨again, stuck⟩ := ih above
      obtain ⟨-, rfl⟩ := Prod.mk.inj failed
      by_cases still : f.LacksParent p
      · exact ⟨again, by rw [makeDirectories_of_lacksParent still, stuck]⟩
      -- No way leads to the directory, or there would be the one above it.
      · have lost : ∀ l, f.find p ≠ .ok l := by
          intro l found
          rw [(hasDirectory_parent found lacks.1).makeDirectories] at stuck
          cases stuck
        rw [makeDirectories_eq_attempt still]
        exact attempt_of_lost lost
    · next done f above =>
      have same := attempt_eq_error failed
      subst same
      have there := (hasDirectory_of_makeDirectories above).makeDirectories
      by_cases still : e.LacksParent p
      · refine ⟨why, ?_⟩
        rw [makeDirectories_of_lacksParent still, there]
        exact failed
      · exact ⟨why, by rw [makeDirectories_eq_attempt still, failed]⟩

theorem excuse_ne_null {p : Path} {why : DiskFault} (other : why ≠ .nullCharacter) :
    d.excuse p why ≠ .error .nullCharacter := by
  cases why with
  | nullCharacter => exact absurd rfl other
  | refused why subject =>
    simp only [Disk.excuse, Disk.isDirectory, check]
    rcases d.stat p with ⟨⟨_ | _⟩ | _⟩ | ⟨_ | _⟩ <;> (intro same; cases same)

theorem attempt_ne_null {p : Path} (clean : hasNull p = false) :
    (d.attempt p).1 ≠ .error .nullCharacter := by
  rw [Disk.attempt]
  cases made : d.makeDirectory p with
  | ok e => simp
  | error why =>
    refine excuse_ne_null ?_
    rintro rfl
    cases found : d.find p with
    | error why =>
      rw [makeDirectory_of_find_error found, Except.error.injEq] at made
      exact find_ne_null clean (made ▸ found)
    | ok l =>
      rw [makeDirectory_of_find found] at made
      split_ifs at made <;> cases made

theorem makeDirectories_null_iff {p : Path} :
    (d.makeDirectories p).1 = .error .nullCharacter ↔ hasNull p = true := by
  constructor
  · intro failed
    rw [← Bool.not_eq_false]
    intro clean
    revert failed
    induction p using makeDirectories_induction d with
    | direct p direct =>
      rw [makeDirectories_eq_attempt direct]
      exact attempt_ne_null clean
    | above p lacks ih =>
      have above := ih (hasNull_parent clean)
      rw [makeDirectories_of_lacksParent lacks]
      rcases reached : d.makeDirectories p.parent with ⟨_ | _, e⟩
      · rwa [reached] at above
      · exact attempt_ne_null clean
  · intro bad
    have lost : d.makeDirectory p = .error .nullCharacter :=
      makeDirectory_of_find_error (by rw [Disk.find, if_pos bad])
    have direct : ¬ d.LacksParent p := by
      rintro ⟨_, _, missing⟩
      cases lost.symm.trans missing
    rw [makeDirectories_eq_attempt direct, Disk.attempt, lost]
    rfl

end

end Disk

end ModuleStubs
