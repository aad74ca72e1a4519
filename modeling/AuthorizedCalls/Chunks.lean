namespace AuthorizedCalls

/-- Cuts a list into runs of `size` items, the last one as long as what is left. -/
def chunks {α : Type} (size : Nat) (xs : List α) : List (List α) :=
  match xs with
  | [] => []
  | x :: rest => (x :: rest.take (size - 1)) :: chunks size (rest.drop (size - 1))
termination_by xs.length
decreasing_by exact Nat.lt_succ_of_le (List.length_drop ▸ Nat.sub_le ..)

theorem flatten_chunks {α : Type} (size : Nat) (xs : List α) : (chunks size xs).flatten = xs := by
  fun_induction chunks size xs with
  | case1 => rfl
  | case2 x rest ih => simp [ih]

end AuthorizedCalls
