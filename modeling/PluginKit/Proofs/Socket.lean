import PluginKit.Socket

/-!
# What preparing sockets keeps

Preparing drops sockets only because their directory is that of an earlier one, so some socket is
left, and those that are left lie in different directories.
-/

namespace PluginKit

namespace Socket

variable {plugin : String} {fs fs' : FileSystem} {sockets : List Path}
  {placed : List (Path × Location)}

/-- Sockets with different locations, as found for their directories among all of `sockets`. -/
structure Located (fs : FileSystem) (sockets : List Path) (kept : List (Path × Location)) :
    Prop where
  placed : ∃ fs' placed, placeDirectories fs sockets = (fs', .ok placed) ∧ kept.Sublist placed
  nodup : (kept.map Prod.snd).Nodup

theorem map_fst_of_placeDirectories (h : placeDirectories fs sockets = (fs', .ok placed)) :
    placed.map Prod.fst = sockets := by
  induction sockets generalizing fs placed with
  | nil =>
      cases h
      rfl
  | cons socket rest ih =>
      rw [placeDirectories] at h
      split at h
      · cases h
      · rename_i fs₁ loc hplace
        split at h
        · cases h
        · rename_i fs₂ placed' hrest
          cases h
          rw [List.map_cons, ih hrest]

theorem firstOfEach_spec (seen : List Location) (placed : List (Path × Location)) :
    ∃ kept : List (Path × Location), kept.map Prod.fst = firstOfEach seen placed ∧
      kept.Sublist placed ∧ (kept.map Prod.snd).Nodup ∧
      ∀ item ∈ kept, item.2 ∉ seen := by
  induction placed generalizing seen with
  | nil => exact ⟨[], rfl, List.Sublist.refl _, List.nodup_nil, by simp⟩
  | cons head rest ih =>
      obtain ⟨socket, loc⟩ := head
      by_cases hseen : loc ∈ seen
      · obtain ⟨kept, hfst, hsub, hnodup, hfresh⟩ := ih seen
        rw [firstOfEach, if_pos hseen]
        exact ⟨kept, hfst, hsub.cons _, hnodup, hfresh⟩
      · -- the new location is seen by the rest, so none of the rest has it
        obtain ⟨kept, hfst, hsub, hnodup, hfresh⟩ := ih (loc :: seen)
        rw [firstOfEach, if_neg hseen]
        refine ⟨(socket, loc) :: kept, by rw [List.map_cons, hfst], hsub.cons_cons _, ?_, ?_⟩
        · rw [List.map_cons, List.nodup_cons]
          refine ⟨?_, hnodup⟩
          intro hmem
          obtain ⟨item, hitem, heq⟩ := List.mem_map.mp hmem
          exact hfresh item hitem (heq ▸ List.mem_cons_self)
        · intro item hitem
          rcases List.mem_cons.mp hitem with rfl | hrest
          · exact hseen
          · intro hold
            exact hfresh item hrest (List.mem_cons_of_mem _ hold)

theorem firstOfEach_eq_nil_iff : firstOfEach [] placed = [] ↔ placed = [] := by
  cases placed with
  | nil => simp [firstOfEach]
  | cons head rest => simp [firstOfEach]

theorem firstOfEach_sublist (placed : List (Path × Location)) :
    (firstOfEach [] placed).Sublist (placed.map Prod.fst) := by
  obtain ⟨kept, hfst, hsub, -, -⟩ := firstOfEach_spec [] placed
  rw [← hfst]
  exact hsub.map Prod.fst

/-- What preparing leaves: the sockets as they were if some directory cannot be placed, else the
first of each location, with the outcome of removing what lies there. -/
theorem prepare_cases (plugin : String) (fs : FileSystem) (sockets : List Path) :
    (∃ r, (prepare plugin fs sockets).sockets = sockets ∧
        (prepare plugin fs sockets).outcome = .error r) ∨
      ∃ fs' placed, placeDirectories fs sockets = (fs', .ok placed) ∧
        (prepare plugin fs sockets).sockets = firstOfEach [] placed ∧
        ((prepare plugin fs sockets).outcome = .ok () → firstOfEach [] placed ≠ []) := by
  unfold prepare
  split
  · exact .inl ⟨_, rfl, rfl⟩
  · rename_i fs' placed hplaced
    refine .inr ⟨fs', placed, hplaced, ?_⟩
    split
    · rename_i hnone
      exact ⟨hnone.symm, nofun⟩
    · rename_i hsome
      exact ⟨rfl, fun _ => hsome⟩

theorem prepare_sublist (plugin : String) (fs : FileSystem) (sockets : List Path) :
    (prepare plugin fs sockets).sockets.Sublist sockets := by
  rcases prepare_cases plugin fs sockets with ⟨r, hsockets, -⟩ | ⟨fs', placed, hplaced, hkept, -⟩
  · simp [hsockets]
  · rw [hkept, ← map_fst_of_placeDirectories hplaced]
    exact firstOfEach_sublist placed

theorem prepare_ne_nil (h : sockets ≠ []) : (prepare plugin fs sockets).sockets ≠ [] := by
  rcases prepare_cases plugin fs sockets with ⟨r, hsockets, -⟩ | ⟨fs', placed, hplaced, hkept, -⟩
  · rwa [hsockets]
  · rw [hkept]
    intro hnone
    rw [firstOfEach_eq_nil_iff] at hnone
    subst hnone
    exact h (map_fst_of_placeDirectories hplaced).symm

/-- Prepared sockets lie in different directories. -/
theorem prepare_located (h : (prepare plugin fs sockets).outcome = .ok ()) :
    ∃ kept, Located fs sockets kept ∧ kept ≠ [] ∧
      kept.map Prod.fst = (prepare plugin fs sockets).sockets := by
  rcases prepare_cases plugin fs sockets with ⟨r, -, hfails⟩ | ⟨fs', placed, hplaced, hkept, hsome⟩
  · rw [h] at hfails
    contradiction
  · obtain ⟨kept, hfst, hsub, hnodup, -⟩ := firstOfEach_spec [] placed
    refine ⟨kept, ⟨⟨fs', placed, hplaced, hsub⟩, hnodup⟩, ?_, hfst.trans hkept.symm⟩
    intro hnone
    rw [hnone] at hfst
    exact hsome h hfst.symm

end Socket

end PluginKit
