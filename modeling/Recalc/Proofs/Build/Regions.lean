import Recalc.Proofs.Build.Construction

namespace Recalc

structure Rect.Proper (r : Rect) : Prop where
  bounded : r.Bounded
  plain : Plain r.sheet
  named : r.sheet ≠ ""
  bared : bare r.sheet = r.sheet

theorem Rect.Proper.parse {r : Rect} (proper : r.Proper) (sheet : String) : Rect.parse r.text sheet = .ok r :=
  Rect.parse_own proper.bounded proper.named proper.bared sheet

theorem Rect.Proper.parse_cell {c : CellRef} (proper : (Rect.ofCell c).Proper) (sheet : String) : CellRef.parse c.text sheet = .ok c := by
  obtain ⟨⟨column,row⟩,-,named,bared⟩ := proper
  exact CellRef.parse_own ⟨⟨column.1,column.2.2⟩,⟨row.1,row.2.2⟩⟩ named bared sheet

def Tree.TableUse.use (use : Option TableUse) : Use :=
  use.elim .whole fun use => .table use.vertical use.index

def Rect.Shows (slice r : Rect) (row column : Nat) : Prop :=
  ∃ i j, i < slice.rows ∧ j < slice.columns ∧ slice.cellAt i j = r.cellAt row column

namespace Build
variable {r slice key result : Rect} {index : Nat} {region : Region}

theorem columnSlice_bounded (bounded : r.Bounded) (made : r.columnSlice index = some slice) :
    slice.Bounded ∧ slice.sheet = r.sheet := by
  obtain ⟨columns,rows⟩ := bounded
  unfold Rect.columnSlice Rect.columns at made
  split at made
  · cases made
    exact ⟨⟨by simp only; omega,rows⟩,rfl⟩
  · cases made

theorem rowSlice_bounded (bounded : r.Bounded) (made : r.rowSlice index = some slice) :
    slice.Bounded ∧ slice.sheet = r.sheet := by
  obtain ⟨columns,rows⟩ := bounded
  unfold Rect.rowSlice Rect.rows at made
  split at made
  · cases made
    exact ⟨⟨columns,by simp only; omega⟩,rfl⟩
  · cases made

theorem proper_slice (proper : r.Proper) (slices : slice.Bounded ∧ slice.sheet = r.sheet) : slice.Proper := by
  obtain ⟨bounded,same⟩ := slices
  exact ⟨bounded,same ▸ proper.plain,same ▸ proper.named,by rw [same,proper.bared]⟩

theorem columnSlice_spec (proper : r.Proper) (made : r.columnSlice index = some slice) : slice.Proper ∧
    ∀ row, row < r.rows → slice.Shows r row (index - 1) := by
  refine ⟨proper_slice proper (columnSlice_bounded proper.bounded made),fun row below => ?_⟩
  unfold Rect.columnSlice at made
  split at made
  · cases made
    exact ⟨row,0,below,by simp [Rect.columns],rfl⟩
  · cases made

theorem rowSlice_spec (proper : r.Proper) (made : r.rowSlice index = some slice) : slice.Proper ∧
    ∀ column, column < r.columns → slice.Shows r (index - 1) column := by
  refine ⟨proper_slice proper (rowSlice_bounded proper.bounded made),fun column below => ?_⟩
  unfold Rect.rowSlice at made
  split at made
  · cases made
    exact ⟨0,column,by simp [Rect.rows],below,rfl⟩
  · cases made

structure Serves (use : Option Tree.TableUse) (r : Rect) (region : Region) : Prop where
  proper : ∀ slice ∈ region.rects, slice.Proper
  some : region.rects ≠ []
  reads : ∀ row column, row < r.rows → column < r.columns →
    (∀ table, use = .some table → (if table.vertical then column else row) ∈ [0,table.index - 1]) →
    ∃ slice ∈ region.rects, slice.Shows r row column

theorem serves_ofRect (proper : r.Proper) (use : Option Tree.TableUse) : Serves use r (.ofRect r) := by
  refine ⟨?_,by simp [Region.ofRect],fun row column inside within _ => ⟨r,by simp [Region.ofRect],row,column,inside,within,rfl⟩⟩
  intro slice listed
  rw [List.mem_singleton.mp listed]
  exact proper

theorem serves_pair {use : Tree.TableUse} (rects : region.rects = [key] ∧ key = result ∨ region.rects = [key,result])
    (keyProper : key.Proper) (resultProper : result.Proper) (keys : ∀ row column, row < r.rows → column < r.columns →
      (if use.vertical then column else row) = 0 → key.Shows r row column)
    (results : ∀ row column, row < r.rows → column < r.columns →
      (if use.vertical then column else row) = use.index - 1 → result.Shows r row column) :
    Serves (some use) r region := by
  have keyed : key ∈ region.rects := by rcases rects with ⟨one,-⟩ | two <;> simp [*]
  have resulted : result ∈ region.rects := by rcases rects with ⟨one,rfl⟩ | two <;> simp [*]
  refine ⟨fun slice listed => ?_,List.ne_nil_of_mem keyed,fun row column inside within place => ?_⟩
  · rcases rects with ⟨one,-⟩ | two
    · rw [one] at listed
      rwa [List.mem_singleton.mp listed]
    · rw [two] at listed
      rcases List.mem_pair.mp listed with rfl | rfl
      · exact keyProper
      · exact resultProper
  · rcases List.mem_pair.mp (place use rfl) with first | second
    · exact ⟨key,keyed,keys row column inside within first⟩
    · exact ⟨result,resulted,results row column inside within second⟩

theorem serves_slices {use : Tree.TableUse} (proper : r.Proper) (made : slices use r = some region) :
    Serves (some use) r region := by
  unfold slices at made
  split at made
  · rename_i vertical
    obtain ⟨key,first,made⟩ := Option.bind_eq_some_iff.mp made
    obtain ⟨result,second,made⟩ := Option.bind_eq_some_iff.mp made
    obtain ⟨keyProper,keys⟩ := columnSlice_spec proper first
    obtain ⟨resultProper,results⟩ := columnSlice_spec proper second
    refine serves_pair ?_ keyProper resultProper ?_ ?_
    · split at made
      · rename_i one
        cases made
        rw [one,first] at second
        exact .inl ⟨rfl,Option.some.inj second⟩
      · cases made
        exact .inr rfl
    · rintro row column inside - place
      rw [if_pos vertical] at place
      exact place ▸ keys row inside
    · rintro row column inside - place
      rw [if_pos vertical] at place
      exact place ▸ results row inside
  · rename_i horizontal
    obtain ⟨key,first,made⟩ := Option.bind_eq_some_iff.mp made
    obtain ⟨result,second,made⟩ := Option.bind_eq_some_iff.mp made
    obtain ⟨keyProper,keys⟩ := rowSlice_spec proper first
    obtain ⟨resultProper,results⟩ := rowSlice_spec proper second
    refine serves_pair ?_ keyProper resultProper ?_ ?_
    · split at made
      · rename_i one
        cases made
        rw [one,first] at second
        exact .inl ⟨rfl,Option.some.inj second⟩
      · cases made
        exact .inr rfl
    · rintro row column - within place
      rw [if_neg horizontal] at place
      exact place ▸ keys column within
    · rintro row column - within place
      rw [if_neg horizontal] at place
      exact place ▸ results column within

theorem serves_regionOf (options : BuildOptions) (use : Option Tree.TableUse) (proper : r.Proper) :
    Serves use r (regionOf options use r) := by
  unfold regionOf
  split
  · cases use with
    | none => exact serves_ofRect proper none
    | some use =>
      cases made : slices use r with
      | none => simpa [made] using serves_ofRect proper (some use)
      | some region => simpa [made] using serves_slices proper made
  · exact serves_ofRect proper use

-- The address of a region spells its rectangles, and nothing else does.
theorem Serves.address {use : Option Tree.TableUse} (serves : Serves use r region) : isRange region.address = true ∧
    ':' ∈ region.address.toList ∧
    Text.splitEach ';' region.address.toList = region.rects.map fun slice => slice.text.toList := by
  obtain ⟨first,rest,made⟩ := List.exists_cons_of_ne_nil serves.some
  have proper := serves.proper first (by simp [made])
  have spelled : region.address = first.sheet ++ String.intercalate ";" (("!" ++ first.a1) :: rest.map Rect.text) := by
    rw [Region.address,made,List.map_cons,Rect.text,String.append_assoc,String.intercalate_cons_append]
  have colon : ':' ∈ (String.intercalate ";" (("!" ++ first.a1) :: rest.map Rect.text)).toList := by
    cases rest.map Rect.text <;> simp [String.intercalate_cons_cons,Rect.a1_spelled]
  refine ⟨?_,?_,?_⟩
  · rw [spelled]
    exact isRange_append proper.plain proper.named colon
  · rw [spelled,String.toList_append]
    exact List.mem_append_right _ colon
  · have joined : region.address.toList = [';'].intercalate (region.rects.map fun slice => slice.text.toList) := by
      simp [Region.address,Function.comp_def]
    rw [joined]
    refine Text.splitEach_intercalate (by simpa using serves.some) fun piece listed => ?_
    obtain ⟨slice,member,rfl⟩ := List.mem_map.mp listed
    rw [semicolon_rect]
    exact (serves.proper slice member).plain.2

theorem Serves.rects_inj {use use' : Option Tree.TableUse} {r' : Rect} {region' : Region} (serves : Serves use r region)
    (serves' : Serves use' r' region') (same : region.address = region'.address) : region.rects = region'.rects := by
  have read {use : Option Tree.TableUse} {r : Rect} {region : Region} (serves : Serves use r region) :
      (Text.splitEach ';' region.address.toList).map (fun piece => Rect.parse (String.ofList piece) "") =
        region.rects.map Except.ok := by
    rw [serves.address.2.2,List.map_map]
    refine List.map_congr_left fun slice member => ?_
    rw [Function.comp_apply,String.ofList_toList]
    exact (serves.proper slice member).parse ""
  have both := read serves
  rw [same,read serves'] at both
  exact (List.map_injective_iff.mpr (fun _ _ => Except.ok.inj) both).symm

end Build
end Recalc
