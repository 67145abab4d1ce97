import Shipment.Path

/-!
# Names joined to paths

A *name* is what one thing in a directory is called.  Joining a name to a path adds one part
behind those of the path.  A path that ends in a name is the parent of the paths that other
names are joined to it in.
-/

namespace Shipment.Path

variable {p : Path} {name : String} {cs ds : List Char}

/-! ## Pieces -/

theorem pieces_ne_nil (cs : List Char) : pieces cs ≠ [] := by
  fun_induction pieces cs <;> simp

/-- The pieces of two texts with a slash between them. -/
theorem pieces_append (cs ds : List Char) : pieces (cs ++ '/' :: ds) = pieces cs ++ pieces ds := by
  fun_induction pieces cs with
  | case1 => rfl
  | case2 cs ih => rw [List.cons_append, pieces, ih, List.cons_append]
  | case3 c cs h hcs ih => exact absurd hcs (pieces_ne_nil cs)
  | case4 c cs h piece rest hcs ih =>
      rw [hcs, List.cons_append] at ih
      rw [List.cons_append, pieces.eq_3 _ _ h, ih, List.cons_append]

theorem pieces_of_noSlash (h : '/' ∉ cs) : pieces cs = [cs] := by
  induction cs with
  | nil => rfl
  | cons c cs ih =>
      have hc : c ≠ '/' := fun e => h (e ▸ List.mem_cons_self)
      rw [pieces.eq_3 _ _ hc, ih fun hcs => h (List.mem_cons_of_mem c hcs)]

theorem noSlash_of_pieces (cs : List Char) : ∀ piece ∈ pieces cs, '/' ∉ piece := by
  fun_induction pieces cs with
  | case1 => simp
  | case2 cs ih => exact List.forall_mem_cons.mpr ⟨by simp, ih⟩
  | case3 c cs hc hcs ih => exact absurd hcs (pieces_ne_nil cs)
  | case4 c cs hc first rest hcs ih =>
      rw [hcs] at ih
      obtain ⟨hfirst, hrest⟩ := List.forall_mem_cons.mp ih
      exact List.forall_mem_cons.mpr ⟨by simp [hfirst, Ne.symm hc], hrest⟩

/-- A text is put together from its pieces again. -/
theorem joinWith_pieces (cs : List Char) :
    Text.joinWith "/" ((pieces cs).map String.ofList) = String.ofList cs := by
  fun_induction pieces cs with
  | case1 => rfl
  | case2 cs ih =>
      rw [Text.joinWith] at ih ⊢
      rw [List.map_cons, String.intercalate_cons_of_ne_nil (by simp [pieces_ne_nil]), ih]
      simp
  | case3 c cs h hcs ih => exact absurd hcs (pieces_ne_nil cs)
  | case4 c cs h piece rest hcs ih =>
      rw [hcs, List.map_cons, Text.joinWith] at ih
      rw [List.map_cons, Text.joinWith, String.ofList_cons, String.intercalate_cons_append, ih,
        String.ofList_cons]

/-- A text without pieces has slashes only. -/
theorem eq_slash_of_pieces (h : ∀ piece ∈ pieces cs, piece = []) : ∀ c ∈ cs, c = '/' := by
  fun_induction pieces cs with
  | case1 => simp
  | case2 cs ih =>
      exact List.forall_mem_cons.mpr ⟨rfl, ih (List.forall_mem_cons.mp h).2⟩
  | case3 c cs hc hcs ih => exact absurd hcs (pieces_ne_nil cs)
  | case4 c cs hc first rest hcs ih => cases (List.forall_mem_cons.mp h).1

/-- A path that names something has a part. -/
theorem parts_ne_nil (htext : p.text ≠ "") (hslash : p.endsInSlash = false) : p.parts ≠ [] := by
  intro hparts
  have hpieces : ∀ piece ∈ pieces p.text.toList, piece = [] := by
    simpa [parts] using hparts
  have hne : p.text.toList ≠ [] := fun e => htext (String.toList_eq_nil_iff.mp e)
  have hlast := eq_slash_of_pieces hpieces _ (List.getLast_mem hne)
  rw [endsInSlash, List.getLast?_eq_some_getLast hne, hlast] at hslash
  cases hslash

/-! ## Names -/

/-- A text that is the name of one thing in a directory. -/
structure IsName (name : String) : Prop where
  ne_empty : name ≠ ""
  noSlash : '/' ∉ name.toList
  ne_dot : name ≠ "."
  ne_up : name ≠ ".."

theorem IsName.pieces_eq (h : IsName name) : pieces name.toList = [name.toList] :=
  pieces_of_noSlash h.noSlash

theorem IsName.toList_ne_nil (h : IsName name) : name.toList ≠ [] :=
  fun e => h.ne_empty (String.toList_eq_nil_iff.mp e)

theorem IsName.isIdle_eq (h : IsName name) : isIdle name.toList = false := by
  have hdot : name.toList ≠ ['.'] := fun e => h.ne_dot (String.toList_inj.mp e)
  simp [isIdle, h.toList_ne_nil, hdot]

theorem IsName.isAbsolute_eq (h : IsName name) : (Path.mk name).isAbsolute = false := by
  obtain ⟨c, cs, hname⟩ := List.exists_cons_of_ne_nil h.toList_ne_nil
  have hc : c ≠ '/' := fun e => h.noSlash (hname ▸ e ▸ List.mem_cons_self)
  simp [isAbsolute, hname, hc]

/-- The pieces of a path with a name joined to it. -/
theorem pieces_join (p : Path) (h : IsName name) :
    ∃ front, pieces (p.join ⟨name⟩).text.toList = front ++ [name.toList] ∧
      front.filter (fun piece => !piece.isEmpty) =
        (pieces p.text.toList).filter fun piece => !piece.isEmpty := by
  by_cases htext : p.text = ""
  · refine ⟨[], ?_, by simp [htext, pieces]⟩
    simp [join, htext, h.pieces_eq]
  cases hslash : p.endsInSlash with
  | true =>
      have hlast : p.text.toList.getLast? = some '/' := by simpa [endsInSlash] using hslash
      obtain ⟨front, hfront⟩ := List.getLast?_eq_some_iff.mp hlast
      refine ⟨pieces front, ?_, ?_⟩
      · have hjoin : (p.join ⟨name⟩).text.toList = front ++ '/' :: name.toList := by
          simp [join, h.isAbsolute_eq, htext, hslash, hfront]
        rw [hjoin, pieces_append, h.pieces_eq]
      · rw [hfront, pieces_append]
        simp [pieces]
  | false =>
      refine ⟨pieces p.text.toList, ?_, rfl⟩
      have hjoin : (p.join ⟨name⟩).text.toList = p.text.toList ++ '/' :: name.toList := by
        simp [join, h.isAbsolute_eq, htext, hslash]
      rw [hjoin, pieces_append, h.pieces_eq]

/-! ## Joining -/

/-- The name is one more part. -/
theorem parts_join (p : Path) (h : IsName name) : (p.join ⟨name⟩).parts = p.parts ++ [name] := by
  obtain ⟨front, hpieces, hfront⟩ := pieces_join p h
  rw [parts, hpieces, List.filter_append, hfront, List.map_append, parts]
  simp [h.toList_ne_nil]

theorem isAbsolute_join (p : Path) (h : IsName name) :
    (p.join ⟨name⟩).isAbsolute = p.isAbsolute := by
  by_cases htext : p.text = ""
  · rw [join, if_pos (.inr htext), h.isAbsolute_eq]
    simp [isAbsolute, htext]
  · obtain ⟨c, cs, hp⟩ := List.exists_cons_of_ne_nil fun e => htext (String.toList_eq_nil_iff.mp e)
    rw [join, if_neg (by simp [h.isAbsolute_eq, htext])]
    split <;> simp [isAbsolute, hp]

/-- The name is one more component. -/
theorem components_join (p : Path) (h : IsName name) :
    (p.join ⟨name⟩).components = p.components ++ [name] := by
  have hlast : [name].filter (· ≠ ".") = [name] := by simp [h.ne_dot]
  rw [components, components, parts_join p h, isAbsolute_join p h]
  cases p.parts with
  | nil => simp [h.ne_dot]
  | cons first rest =>
      simp only [List.cons_append]
      split
      · rw [List.filter_append, hlast, List.cons_append]
      · rw [← List.cons_append, List.filter_append, hlast]

/-- A path has its parts for components, but for dots. -/
theorem components_filter (p : Path) :
    p.components.filter (· ≠ ".") = p.parts.filter (· ≠ ".") := by
  rw [components]
  cases p.parts with
  | nil => rfl
  | cons first rest =>
      simp only
      split
      · rename_i h
        simp [h.1]
      · rw [List.filter_filter]
        simp

/-- The last piece of a path is a name. -/
def EndsIn (p : Path) (name : String) : Prop :=
  IsName name ∧ ∃ front, pieces p.text.toList = front ++ [name.toList]

theorem endsIn_join (p : Path) (h : IsName name) : (p.join ⟨name⟩).EndsIn name :=
  let ⟨front, hpieces, _⟩ := pieces_join p h
  ⟨h, front, hpieces⟩

namespace EndsIn

variable {last : String}

/-- The last piece is not empty. -/
theorem getLast?_pieces (h : p.EndsIn last) : (pieces p.text.toList).getLast? ≠ some [] := by
  obtain ⟨hname, front, hpieces⟩ := h
  rw [hpieces, List.getLast?_concat]
  exact fun e => hname.toList_ne_nil (Option.some.inj e)

theorem text_ne_empty (h : p.EndsIn last) : p.text ≠ "" := by
  intro e
  refine h.getLast?_pieces ?_
  rw [e]
  rfl

theorem endsInSlash_eq (h : p.EndsIn last) : p.endsInSlash = false := by
  refine Bool.eq_false_iff.mpr fun hslash => h.getLast?_pieces ?_
  have hlast : p.text.toList.getLast? = some '/' := by simpa [endsInSlash] using hslash
  obtain ⟨cs, hcs⟩ := List.getLast?_eq_some_iff.mp hlast
  rw [hcs, pieces_append]
  exact List.getLast?_concat

theorem text_join (h : p.EndsIn last) (hname : IsName name) :
    (p.join ⟨name⟩).text = p.text ++ "/" ++ name := by
  simp [join, hname.isAbsolute_eq, h.text_ne_empty, h.endsInSlash_eq]

/-- The parent of a path with a name joined to it. -/
theorem parent?_join (h : p.EndsIn last) (hname : IsName name) :
    (p.join ⟨name⟩).parent? = some p := by
  obtain ⟨hlast, front, hpieces⟩ := id h
  have hall : pieces (p.join ⟨name⟩).text.toList = front ++ [last.toList, name.toList] := by
    rw [h.text_join hname]
    simp [pieces_append, hpieces, hname.pieces_eq]
  -- Behind the name that is taken away there is another one, so nothing else is.
  have hdrop (f : List (List Char)) : (f ++ [last.toList, name.toList]).reverse.dropWhile isIdle =
      name.toList :: last.toList :: f.reverse := by
    simp [hname.isIdle_eq]
  have hkeep (f : List (List Char)) :
      ((last.toList :: f.reverse).dropWhile isIdle).reverse = f ++ [last.toList] := by
    simp [hlast.isIdle_eq]
  rw [parent?, isAbsolute_join p hname, hall]
  cases habs : p.isAbsolute with
  | true =>
      -- The piece in front of the first slash is empty.
      obtain ⟨cs, hcs⟩ : ∃ cs, p.text.toList = '/' :: cs := by
        rw [isAbsolute, beq_iff_eq] at habs
        exact List.head?_eq_some_iff.mp habs
      have hcut : [] :: pieces cs = front ++ [last.toList] := by rw [← hpieces, hcs, pieces]
      cases front with
      | nil => exact absurd (List.cons.inj hcut).1.symm hlast.toList_ne_nil
      | cons f front =>
          obtain ⟨rfl, hcs'⟩ := List.cons.inj hcut
          have htext : "/" ++ String.ofList cs = p.text := by
            rw [← String.toList_inj, hcs]
            simp
          rw [if_neg (by simp), if_pos rfl]
          simp only [List.cons_append, List.drop_succ_cons, List.drop_zero, hdrop, hkeep,
            List.nil_append]
          rw [← List.append_eq, ← hcs', ofParts, joinWith_pieces, if_pos rfl, htext]
  | false =>
      have hwhole : ofParts false ((front ++ [last.toList]).map String.ofList) = p := by
        rw [← hpieces, ofParts, joinWith_pieces]
        simp
      cases front with
      | nil =>
          have hdot : ¬([] ++ [last.toList, name.toList]).head? = some ['.'] := fun e =>
            hlast.ne_dot (String.toList_inj.mp (Option.some.inj e))
          rw [if_neg (by simpa using hdot), if_neg Bool.false_ne_true]
          simp only [hdrop, hkeep]
          exact congrArg some hwhole
      | cons f front =>
          by_cases hdot : f = ['.']
          · rw [if_pos (by simp [hdot])]
            simp only [List.cons_append, List.drop_succ_cons, List.drop_zero, hdrop, hkeep]
            exact congrArg some (by rwa [← hdot])
          · rw [if_neg (by simpa using hdot), if_neg Bool.false_ne_true]
            simp only [hdrop, hkeep]
            exact congrArg some hwhole

end EndsIn

/-- The name of a path is the name of one thing. -/
theorem isName_of_fileName? (h : p.fileName? = some name) : IsName name := by
  rw [fileName?] at h
  cases hlast : p.components.getLast? with
  | none =>
      rw [hlast] at h
      cases h
  | some last =>
      rw [hlast] at h
      simp only [Option.ite_none_left_eq_some, not_or, Option.some.injEq] at h
      obtain ⟨⟨hdot, hup⟩, rfl⟩ := h
      have hmem : last ∈ p.parts := by
        have hfilter : last ∈ p.components.filter (· ≠ ".") :=
          List.mem_filter.mpr ⟨List.mem_of_getLast? hlast, decide_eq_true hdot⟩
        rw [components_filter] at hfilter
        exact (List.mem_filter.mp hfilter).1
      obtain ⟨piece, hpiece, rfl⟩ := List.mem_map.mp hmem
      obtain ⟨hpieces, hne⟩ := List.mem_filter.mp hpiece
      refine ⟨fun e => ?_, ?_, hdot, hup⟩
      · have hnil : piece = [] := by simpa using e
        rw [hnil] at hne
        cases hne
      · rw [String.toList_ofList]
        exact noSlash_of_pieces _ piece hpieces

end Shipment.Path
