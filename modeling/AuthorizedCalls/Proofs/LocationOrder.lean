import AuthorizedCalls.Diagnostic

namespace AuthorizedCalls

namespace Diagnostics

/-- The first list holds the diagnostics of the second in order of location, those of one location
as they were reported. -/
structure Sorts (sorted reported : Diagnostics) : Prop where
  perm : sorted.Perm reported
  ascending : sorted.Pairwise fun x y => x.location.notAfter y.location = true
  stable : ∀ location : Span, (sorted.filter fun x => x.location = location) =
    reported.filter fun x => x.location = location

theorem ascending_sortByLocation (ds : Diagnostics) :
    ds.sortByLocation.Pairwise fun x y => x.location.notAfter y.location = true :=
  List.pairwise_mergeSort
    (fun x y z => Span.notAfter_trans x.location y.location z.location)
    (fun x y => Span.notAfter_total x.location y.location) ds

/-- What is at one location is in order already, so sorting does not move it. -/
theorem filter_sortByLocation (ds : Diagnostics) (location : Span) :
    (ds.sortByLocation.filter fun x => x.location = location) =
      ds.filter fun x => x.location = location := by
  have hordered : (ds.filter fun x => x.location = location).Pairwise
      fun x y => x.location.notAfter y.location = true := by
    apply List.pairwise_of_forall_mem_list
    intro x hx y hy
    have hsame : x.location = y.location := by simp_all
    simpa [hsame] using Span.notAfter_total y.location y.location
  have hsublist := List.sublist_mergeSort
    (fun x y z => Span.notAfter_trans x.location y.location z.location)
    (fun x y => Span.notAfter_total x.location y.location) hordered List.filter_sublist
  have hkept := hsublist.filter fun x => decide (x.location = location)
  rw [List.filter_filter] at hkept
  simp only [Bool.and_self] at hkept
  exact (hkept.eq_of_length ((perm_sortByLocation ds).filter _).length_eq.symm).symm

theorem sorts_sortByLocation (ds : Diagnostics) : ds.sortByLocation.Sorts ds where
  perm := perm_sortByLocation ds
  ascending := ascending_sortByLocation ds
  stable := filter_sortByLocation ds

end Diagnostics

end AuthorizedCalls
