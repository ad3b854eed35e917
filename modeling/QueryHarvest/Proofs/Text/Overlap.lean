import QueryHarvest.Proofs.Text.Places

/-! # Searches without overlap

A search goes on behind every match, so that it loses a match to one that begins before it and goes past
the place where it begins. Nothing else is lost, and what is found stands in the order of the text.
-/

namespace QueryHarvest.Text

namespace Pattern

variable {α : Type} {p : Pattern α}

/-- A match ends behind what it has read. -/
def Advances (p : Pattern α) : Prop :=
  ∀ {c after : Cursor} {value : α}, p.match? c = some (value, after) → ∃ read, c.Passes read after

theorem match?_of_mem_findAll (h : p.Advances) {c : Cursor} {m : Match α} (found : m ∈ p.findAll c) :
    p.match? m.place = some (m.value, m.after) ∧ ∃ front, c.Passes front m.place := by
  fun_induction p.findAll c with
  | case1 c value after matched ih =>
      rcases List.mem_cons.mp found with rfl | later
      · exact ⟨matched, [], .refl c⟩
      · obtain ⟨here, front, passed⟩ := ih later
        obtain ⟨read, first⟩ := h matched
        exact ⟨here, read ++ front, first.trans passed⟩
  | case2 => cases found
  | case3 c missed x rest shown ih =>
      obtain ⟨here, front, passed⟩ := ih found
      have first : c.Passes [x] ⟨some x, rest⟩ := ⟨shown, rfl⟩
      exact ⟨here, [x] ++ front, first.trans passed⟩

/-- The matches of a search begin one behind the other. -/
theorem pairwise_findAll (h : p.Advances) (c : Cursor) :
    (p.findAll c).Pairwise fun m m' => m'.place.rest.length < m.place.rest.length := by
  fun_induction p.findAll c with
  | case1 c value after matched ih =>
      refine List.pairwise_cons.mpr ⟨fun m later => ?_, ih⟩
      obtain ⟨-, front, passed⟩ := match?_of_mem_findAll h later
      have shorter : after.rest.length < c.rest.length := p.shrinks matched
      have inside := passed.length
      simp only
      omega
  | case2 => exact .nil
  | case3 c missed x rest shown ih => exact ih

/-- A match begins at or behind the end of all that are found before it. -/
theorem pairwise_behind (goesOn : ∀ {c after : Cursor} {value : α}, p.match? c = some (value, after) →
    after.rest <:+ c.rest) (c : Cursor) :
    (p.findAll c).Pairwise fun m m' => m'.place.rest <:+ m.after.rest := by
  fun_induction p.findAll c with
  | case1 c value after matched ih =>
      exact List.pairwise_cons.mpr ⟨fun m later => (of_mem_findAll goesOn later).2, ih⟩
  | case2 => exact .nil
  | case3 c missed x rest shown ih => exact ih

/-- Of two places, the search comes to the later one from the earlier one, or a match that begins at the
earlier one goes past the later one. -/
structure GoesPast (m : Match α) (inside : List Char) (place : Cursor) : Prop where
  earlier : inside ≠ []
  passed : m.place.Passes inside place
  later : ∃ past, past ≠ [] ∧ place.Passes past m.after

/-- A match is found unless the search finds one that begins before it and goes past its place. -/
theorem mem_findAll_or_goesPast (h : p.Advances) {c place after : Cursor} {front : List Char} {value : α}
    (passed : c.Passes front place) (matched : p.match? place = some (value, after)) :
    ⟨place, value, after⟩ ∈ p.findAll c ∨
      ∃ m ∈ p.findAll c, ∃ before inside, front = before ++ inside ∧ c.Passes before m.place ∧
        GoesPast m inside place := by
  fun_induction p.findAll c generalizing front with
  | case1 c value' after' hit ih =>
      obtain ⟨read, first⟩ := h hit
      rcases first.compare passed with ⟨between, rfl, onwards⟩ | ⟨past, nonempty, rfl, onwards⟩
      · rcases ih onwards with found | ⟨m, found, before, inside, rfl, onwards, goesPast⟩
        · exact .inl (List.mem_cons_of_mem _ found)
        · exact .inr ⟨m, List.mem_cons_of_mem _ found, read ++ before, inside,
            (List.append_assoc ..).symm, first.trans onwards, goesPast⟩
      · cases front with
        | nil =>
            cases passed.eq
            cases hit.symm.trans matched
            exact .inl (List.mem_cons_self ..)
        | cons x front =>
            exact .inr ⟨_, List.mem_cons_self .., [], x :: front, rfl, .refl c, List.cons_ne_nil x front,
              passed, past, nonempty, onwards⟩
  | case2 c missed shown =>
      have nothing : front = [] := (List.append_eq_nil_iff.mp (passed.rest.symm.trans shown)).1
      subst nothing
      cases passed.eq
      cases missed.symm.trans matched
  | case3 c missed x rest shown ih =>
      have first : c.Passes [x] ⟨some x, rest⟩ := ⟨shown, rfl⟩
      rcases first.compare passed with ⟨between, rfl, onwards⟩ | ⟨past, nonempty, same, -⟩
      · rcases ih onwards with found | ⟨m, found, before, inside, rfl, onwards, goesPast⟩
        · exact .inl found
        · exact .inr ⟨m, found, [x] ++ before, inside, rfl, first.trans onwards, goesPast⟩
      · cases front with
        | nil =>
            cases passed.eq
            cases missed.symm.trans matched
        | cons y front =>
            rw [List.cons_append, List.cons.injEq] at same
            exact absurd (List.append_eq_nil_iff.mp same.2.symm).2 nonempty

end Pattern

end QueryHarvest.Text
