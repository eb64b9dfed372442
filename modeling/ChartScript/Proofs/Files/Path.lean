/-
File names and paths.

A file name is cut at its last point, so what stands in front of an extension can be put together
with it again.  A name joined to the path of a directory leads to the entry of that name: the
components of the joined path are those of the directory and then the name.  A slash at the end of
the directory is no exception, because the empty component behind it stays where it is.  Nor is one
at the front: an absolute path is followed in the same way, only from the root.
-/
import Mathlib.Data.List.Basic
import ChartScript.Files.Tree
import ChartScript.Proofs.Checks

namespace ChartScript

/-! ### Names cut at a point -/

namespace Path

theorem stemAndExtension?_eq_some_iff {name stem extension : List Char} :
    stemAndExtension? name = some (stem, extension) ↔
      name = stem ++ '.' :: extension ∧ '.' ∉ extension ∧ stem ≠ [] := by
  unfold stemAndExtension?
  constructor
  · intro h
    split at h
    · cases h
    · rename_i point front hfront
      split at h
      · cases h
      · rename_i hstem
        cases h
        obtain rfl : point = '.' := by
          simpa [hfront] using List.head?_dropWhile_not (· != '.') name.reverse
        have hname : name.reverse = name.reverse.takeWhile (· != '.') ++ '.' :: front := by
          rw [← hfront, List.takeWhile_append_dropWhile]
        refine ⟨?_, fun hmem => ?_, by simpa using hstem⟩
        · simpa using congrArg List.reverse hname
        · have hne := List.all_eq_true.mp List.all_takeWhile _ (List.mem_reverse.mp hmem)
          simp at hne
  · rintro ⟨rfl, hextension, hstem⟩
    have hreverse : (stem ++ '.' :: extension).reverse =
        extension.reverse ++ '.' :: stem.reverse := by simp
    have hplain : ∀ c ∈ extension.reverse, (c != '.') = true := by
      intro c hc
      rw [bne_iff_ne]
      rintro rfl
      exact hextension (List.mem_reverse.mp hc)
    rw [hreverse, List.takeWhile_append_of_pos hplain, List.dropWhile_append_of_pos hplain]
    simp [hstem]

/-- **What is called something in front of an extension is called that and the extension.** -/
theorem stemBefore?_eq_some_iff {extension : String} (hplain : '.' ∉ extension.toList)
    {name stem : String} :
    stemBefore? extension name = some stem ↔ stem ≠ "" ∧ name = stem ++ "." ++ extension := by
  have hcut : stemBefore? extension name = some stem ↔
      stemAndExtension? name.toList = some (stem.toList, extension.toList) := by
    unfold stemBefore?
    cases stemAndExtension? name.toList with
    | none => simp
    | some cut =>
        obtain ⟨front, behind⟩ := cut
        simp only [beq_iff_eq, Option.ite_none_right_eq_some, Option.some.injEq, Prod.mk.injEq]
        constructor
        · rintro ⟨rfl, rfl⟩
          exact ⟨(String.toList_ofList).symm, rfl⟩
        · rintro ⟨rfl, rfl⟩
          exact ⟨rfl, String.ofList_toList⟩
  have hname : name.toList = stem.toList ++ '.' :: extension.toList ↔
      name = stem ++ "." ++ extension := by
    rw [← String.toList_inj]
    simp
  rw [hcut, stemAndExtension?_eq_some_iff, hname]
  simp only [hplain, not_false_eq_true, true_and, ne_eq, String.toList_eq_nil_iff]
  exact and_comm

/-! ### Names put behind a directory -/

/-- A name is put behind the directory, and behind a slash unless the directory is empty or has one
at its end. -/
theorem join_cases (directory : String) {name : String} (h : '/' ∉ name.toList) :
    (directory = "" ∨ directory.toList.getLast? = some '/') ∧
        join directory name = directory ++ name ∨
      join directory name = directory ++ "/" ++ name := by
  have hrelative : name.toList.head? ≠ some '/' := fun hhead => h (List.mem_of_mem_head? hhead)
  by_cases hbehind : directory = "" ∨ directory.toList.getLast? = some '/'
  · exact Or.inl ⟨hbehind, by simp [join, hrelative, hbehind]⟩
  · exact Or.inr (by simp [join, hrelative, hbehind])

end Path

namespace FileTree

/-! ### Components -/

/-- The parts of a text between its slashes. -/
def pieces (cs : List Char) : List (List Char) :=
  (componentsFrom cs).1 :: (componentsFrom cs).2

theorem components_eq (path : String) : components path = (pieces path.toList).map String.ofList :=
  rfl

/-- A slash parts the pieces in front of it from those behind it. -/
theorem pieces_append_slash (cs ds : List Char) :
    pieces (cs ++ '/' :: ds) = pieces cs ++ pieces ds := by
  induction cs with
  | nil => simp [pieces, componentsFrom]
  | cons c cs ih =>
      simp only [pieces, List.cons_append, List.cons.injEq] at ih
      by_cases hslash : c = '/' <;> simp [pieces, componentsFrom, hslash, ih]

theorem pieces_of_not_mem {cs : List Char} (h : '/' ∉ cs) : pieces cs = [cs] := by
  induction cs with
  | nil => rfl
  | cons c cs ih =>
      obtain ⟨hslash, hplain⟩ := not_or.mp (List.mem_cons.not.mp h)
      have hpieces := ih hplain
      simp only [pieces, List.cons.injEq] at hpieces
      simp [pieces, componentsFrom, Ne.symm hslash, hpieces]

/-! ### Following components -/

variable {tree : FileTree} {place : List String} {node : Node}

theorem follow_append (front behind : List String) :
    tree.follow place node (front ++ behind) =
      (tree.follow place node front >>= fun found => tree.follow found.1 found.2 behind) := by
  induction front generalizing place node with
  | nil => rfl
  | cons name front ih =>
      cases node with
      | file bytes => rfl
      | directory =>
          simp only [List.cons_append, follow]
          split
          · exact ih
          · split
            · cases place with
              | nil => rfl
              | cons _ above => exact ih
            · cases tree.at? (name :: place) with
              | none => rfl
              | some node => exact ih

/-- A name that stands for something in a directory, and not for the directory itself or the one
above. -/
structure IsEntry (name : String) : Prop where
  whole : '/' ∉ name.toList
  ne_empty : name ≠ ""
  ne_point : name ≠ "."
  ne_points : name ≠ ".."

/-- An empty component stays where it is. -/
theorem follow_empty_eq_ok {found : List String × Node}
    (h : tree.follow place node [""] = .ok found) : found = (place, node) := by
  cases node with
  | file bytes => cases h
  | directory =>
      cases h
      rfl

theorem follow_entry {name : String} (h : IsEntry name)
    (hthere : tree.at? (name :: place) = some node) :
    tree.follow place .directory [name] = .ok (name :: place, node) := by
  simp [follow, h.ne_empty, h.ne_point, h.ne_points, hthere]

theorem resolve_eq_ok_iff {path : String} {found : List String × Node} :
    tree.resolve path = .ok found ↔
      path ≠ "" ∧ path.toList.head? ≠ some '/' ∧
        tree.follow [] .directory (components path) = .ok found := by
  unfold resolve
  by_cases hempty : path = ""
  · simp [hempty]
  · by_cases hroot : path.toList.head? = some '/'
    · simp [hroot]
    · simp [hempty, hroot]

/-! ### Joined paths -/

variable {directory name : String}

/-- The components of a joined path are those of the directory and then the name.  What is missing
is an empty one at the end of the directory. -/
theorem exists_components_join (directory : String) (h : '/' ∉ name.toList) :
    ∃ front, components (Path.join directory name) = front ++ [name] ∧
      (components directory = front ∨ components directory = front ++ [""]) := by
  rcases Path.join_cases directory h with ⟨rfl | hslash, hjoin⟩ | hjoin
  · refine ⟨[], ?_, Or.inr rfl⟩
    rw [hjoin, components_eq, String.empty_append, pieces_of_not_mem h]
    simp
  · obtain ⟨front, hfront⟩ := List.getLast?_eq_some_iff.mp hslash
    refine ⟨(pieces front).map String.ofList, ?_, Or.inr ?_⟩
    · rw [hjoin, components_eq, String.toList_append, hfront, List.append_assoc,
        List.singleton_append, pieces_append_slash, pieces_of_not_mem h]
      simp
    · rw [components_eq, hfront, pieces_append_slash, List.map_append]
      rfl
  · refine ⟨components directory, ?_, Or.inl rfl⟩
    have hchars : (directory ++ "/" ++ name).toList = directory.toList ++ '/' :: name.toList := by
      simp
    rw [hjoin, components_eq, components_eq, hchars, pieces_append_slash, pieces_of_not_mem h]
    simp

/-- **A joined path leads to the entry of the directory**, from wherever both are followed. -/
theorem follow_join {start : List String}
    (hdirectory : tree.follow start .directory (components directory) = .ok (place, .directory))
    (hname : IsEntry name) (hthere : tree.at? (name :: place) = some node) :
    tree.follow start .directory (components (Path.join directory name)) =
      .ok (name :: place, node) := by
  obtain ⟨front, hjoin, hfront⟩ := exists_components_join directory hname.whole
  rw [hjoin, follow_append]
  rcases hfront with hfront | hfront
  · rw [← hfront, hdirectory]
    exact follow_entry hname hthere
  · rw [hfront, follow_append] at hdirectory
    obtain ⟨⟨found, _⟩, hfound, hstay⟩ := bind_eq_ok_iff.mp hdirectory
    cases follow_empty_eq_ok hstay
    rw [hfound]
    exact follow_entry hname hthere

/-- A path that is joined to a relative one is relative. -/
theorem resolve_join (hdirectory : tree.resolve directory = .ok (place, .directory))
    (hname : IsEntry name) (hthere : tree.at? (name :: place) = some node) :
    tree.resolve (Path.join directory name) = .ok (name :: place, node) := by
  obtain ⟨hempty, hroot, hfollow⟩ := resolve_eq_ok_iff.mp hdirectory
  have hbehind : ∃ behind, Path.join directory name = directory ++ behind := by
    rcases Path.join_cases directory hname.whole with ⟨-, hjoin⟩ | hjoin
    · exact ⟨name, hjoin⟩
    · exact ⟨"/" ++ name, by rw [hjoin, String.append_assoc]⟩
  obtain ⟨behind, hjoin⟩ := hbehind
  refine resolve_eq_ok_iff.mpr ⟨?_, ?_, follow_join hfollow hname hthere⟩
  · rw [hjoin]
    intro hnothing
    exact hempty (String.append_eq_empty_iff.mp hnothing).1
  · rw [hjoin, String.toList_append, List.head?_append]
    cases hchars : directory.toList with
    | nil => exact absurd (String.toList_eq_nil_iff.mp hchars) hempty
    | cons c cs =>
        rw [hchars] at hroot
        exact hroot

/-! ### Entries -/

theorem exists_at?_of_mem_namesBelow {name : String} (h : name ∈ tree.namesBelow place) :
    ∃ node, tree.at? (name :: place) = some node := by
  obtain ⟨⟨found, node⟩, hmem, hname⟩ := List.mem_filterMap.mp h
  obtain rfl : found = name :: place := by
    cases found with
    | nil => cases hname
    | cons last above =>
        simp only [beq_iff_eq, Option.ite_none_right_eq_some, Option.some.injEq] at hname
        rw [hname.1, hname.2]
  have hfound : (tree.nodes.find? fun node => node.1 == name :: place).isSome = true :=
    List.find?_isSome.mpr ⟨_, hmem, beq_self_eq_true _⟩
  obtain ⟨node, hnode⟩ := Option.isSome_iff_exists.mp hfound
  exact ⟨node.2, by rw [at?, below?, hnode, Option.map_some]; simp⟩

end FileTree

end ChartScript
