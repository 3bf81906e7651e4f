import ModuleStubs.Discovery.Sources
import ModuleStubs.Proofs.Disk.Growth

/-! What is discovered are files: every source of a project leads to one. -/

namespace ModuleStubs

theorem isFile_of_isSource {d : Disk} {settings : Settings} {p : Path}
    (source : isSource d settings p = .ok true) : d.isFile p = .ok true := by
  obtain ⟨answer, file, rest⟩ := of_bind_eq_ok source
  cases answer with
  | false => cases rest
  | true => exact file

theorem isFile_of_matching {d : Disk} {settings : Settings} {pattern : String} {found : List Path}
    (done : matching d settings pattern = .ok found) : ∀ p ∈ found, d.isFile p = .ok true := by
  obtain ⟨glob, -, rest⟩ := of_bind_eq_ok done
  obtain ⟨paths, -, fitting⟩ := of_bind_eq_ok (mapError_eq_ok_iff.mp rest)
  exact fun p mem => isFile_of_isSource ((mem_filterM_iff fitting).mp mem).2

theorem file_of_mem_sources {d : Disk} {settings : Settings} {paths : List Path}
    (found : sources d settings = .ok paths) {p : Path} (mem : p ∈ paths) :
    ∃ l bytes, d.find p = .ok l ∧ d.item? l = some (.file bytes) := by
  obtain ⟨lists, matched, rest⟩ := of_bind_eq_ok found
  cases rest
  obtain ⟨list, mem', held⟩ := List.mem_flatten.mp (SortedSet.mem_ofList.mp mem)
  obtain ⟨pattern, -, given⟩ := (mem_mapM_iff matched).mp mem'
  exact Disk.isFile_eq_true_iff.mp (isFile_of_matching given p held)

end ModuleStubs
