/-
Listing and fetching name the same files.

The symbols of a source are what its directory has entries for: a file name is a symbol, a point and
the extension of the format.  They are listed once each and in ascending order, so the listing does
not depend on the order in which the entries are found.  The path for a listed symbol leads to the
entry that it is listed for.
-/
import Mathlib.Data.List.Sort
import Mathlib.Data.String.Basic
import ChartScript.Proofs.Files.Path
import ChartScript.Source.Basic

namespace ChartScript

/-! ### The order of names -/

namespace Text

theorem ordered_eq_true_iff {a b : List Char} : ordered a b = true ↔ ¬b < a := by
  induction a generalizing b with
  | nil => simp [ordered]
  | cons c cs ih =>
      cases b with
      | nil => simp [ordered]
      | cons d ds =>
          have hlt (x y : Char) : x < y ↔ x.toNat < y.toNat := Iff.rfl
          rw [ordered, List.cons_lt_cons_iff]
          by_cases hsame : c = d
          · simp [hsame, ih]
          · have hne : c.toNat ≠ d.toNat := Char.toNat_inj.not.mpr hsame
            simp only [beq_iff_eq, hne, if_false, decide_eq_true_eq, hlt, Ne.symm hsame,
              false_and, or_false]
            omega

theorem ordered_toList_eq_true_iff {a b : String} :
    ordered a.toList b.toList = true ↔ a ≤ b := by
  rw [ordered_eq_true_iff, ← String.lt_iff_toList_lt, not_lt]

/-- Names that are sorted ascend. -/
theorem pairwise_le_sortNames (names : List String) : (sortNames names).Pairwise (· ≤ ·) := by
  have htrans (a b c : String) : ordered a.toList b.toList = true →
      ordered b.toList c.toList = true → ordered a.toList c.toList = true := ordered_trans
  have htotal (a b : String) : (ordered a.toList b.toList || ordered b.toList a.toList) = true :=
    ordered_total a.toList b.toList
  exact (List.pairwise_mergeSort htrans htotal names).imp ordered_toList_eq_true_iff.mp

/-- The order in which names are given does not matter. -/
theorem sortNames_eq_of_perm {names others : List String} (h : names.Perm others) :
    sortNames names = sortNames others := by
  have hperm : (sortNames names).Perm (sortNames others) :=
    (sortNames_perm names).trans (h.trans (sortNames_perm others).symm)
  exact hperm.eq_of_pairwise' (pairwise_le_sortNames names) (pairwise_le_sortNames others)

end Text

open Text

/-- A path leads to an entry of a directory, in any tree of files.  A tree stands for the directory
that a command is started in and refuses absolute paths, so for these only `follows` says
something: an absolute path is followed from the root, like a relative one from where it starts. -/
structure Path.LeadsTo (path directory entry : String) : Prop where
  resolves : ∀ (tree : FileTree) (place : List String),
    tree.resolve directory = .ok (place, .directory) → entry ∈ tree.namesBelow place →
      ∃ node, tree.at? (entry :: place) = some node ∧
        tree.resolve path = .ok (entry :: place, node)
  follows : ∀ (tree : FileTree) (start place : List String),
    tree.follow start .directory (FileTree.components directory) = .ok (place, .directory) →
      entry ∈ tree.namesBelow place →
        ∃ node, tree.at? (entry :: place) = some node ∧
          tree.follow start .directory (FileTree.components path) = .ok (entry :: place, node)

theorem Path.leadsTo_join (directory : String) {entry : String} (h : FileTree.IsEntry entry) :
    Path.LeadsTo (Path.join directory entry) directory entry where
  resolves _ _ hdirectory hthere := by
    obtain ⟨node, hnode⟩ := FileTree.exists_at?_of_mem_namesBelow hthere
    exact ⟨node, hnode, FileTree.resolve_join hdirectory h hnode⟩
  follows _ _ _ hdirectory hthere := by
    obtain ⟨node, hnode⟩ := FileTree.exists_at?_of_mem_namesBelow hthere
    exact ⟨node, hnode, FileTree.follow_join hdirectory h hnode⟩

namespace Source

variable {format : DataFormat} {names : List String}

theorem not_point_mem_extension : '.' ∉ format.extension.toList := by
  cases format <;> decide

/-- A symbol is what there is an entry for. -/
theorem mem_symbolsAmong_iff {symbol : String} :
    symbol ∈ symbolsAmong format names ↔
      symbol ≠ "" ∧ symbol ++ "." ++ format.extension ∈ names := by
  rw [symbolsAmong, (sortNames_perm _).mem_iff, List.mem_filterMap]
  simp only [Path.stemBefore?_eq_some_iff not_point_mem_extension]
  constructor
  · rintro ⟨_, hname, hsymbol, rfl⟩
    exact ⟨hsymbol, hname⟩
  · rintro ⟨hsymbol, hname⟩
    exact ⟨_, hname, hsymbol, rfl⟩

/-- Symbols are listed once each, in ascending order. -/
theorem pairwise_symbolsAmong (hdistinct : names.Nodup) :
    (symbolsAmong format names).Pairwise (· < ·) := by
  have hnodup : (symbolsAmong format names).Nodup := by
    refine (sortNames_perm _).nodup_iff.mpr (hdistinct.filterMap fun name other symbol h h' => ?_)
    have hname := (Path.stemBefore?_eq_some_iff not_point_mem_extension).mp h
    have hother := (Path.stemBefore?_eq_some_iff not_point_mem_extension).mp h'
    exact hname.2.trans hother.2.symm
  exact ((pairwise_le_sortNames _).and hnodup).imp fun h => lt_of_le_of_ne h.1 h.2

theorem symbolsAmong_eq_of_perm {others : List String} (h : names.Perm others) :
    symbolsAmong format names = symbolsAmong format others :=
  sortNames_eq_of_perm (h.filterMap _)

/-- A file name of a symbol stands for an entry of a directory. -/
theorem isEntry_of_whole {symbol : String}
    (hwhole : '/' ∉ (symbol ++ "." ++ format.extension).toList) :
    FileTree.IsEntry (symbol ++ "." ++ format.extension) := by
  have hlong : 2 < (symbol ++ "." ++ format.extension).length := by
    have hextension : 2 < format.extension.length := by cases format <;> decide
    rw [String.length_append]
    omega
  have hne (short : String) (hshort : short.length ≤ 2) :
      symbol ++ "." ++ format.extension ≠ short := by
    rintro rfl
    exact absurd hlong (Nat.not_lt.mpr hshort)
  exact ⟨hwhole, hne "" (by decide), hne "." (by decide), hne ".." (by decide)⟩

/-- What is fetched is what the text comes to that is read at the path of the symbol. -/
theorem fetch_of_readText_eq_ok {source : Source} {files : FileSystem Id} {symbol text : String}
    (h : files.readText (source.path symbol) = Except.ok text) :
    source.fetch files symbol =
      (readRows source.format (source.path symbol) text).map Bar.ofRows := by
  rw [fetch_eq, h]
  dsimp only
  cases readRows source.format (source.path symbol) text <;> rfl

/-- **Listing and fetching name the same files.**  The symbols that are listed are what is in front
of a point and the extension in the names of the entries, and not empty; they ascend, each of them
once, in whatever order the entries are found.  The path of a symbol that is listed is the directory
joined with the name of the entry that it is listed for, and leads to that entry.  What is fetched
depends on this path only, and is what the text comes to that is read there. -/
theorem symbols_are_what_can_be_fetched (source : Source) (files : FileSystem Id)
    {names : List String} (hnames : files.listNames source.directory = Except.ok names)
    (hdistinct : names.Nodup) (hwhole : ∀ name ∈ names, '/' ∉ name.toList) :
    ∃ listed, source.symbols files = Except.ok listed ∧
      listed.Pairwise (· < ·) ∧
      (∀ symbol, symbol ∈ listed ↔
        symbol ≠ "" ∧ symbol ++ "." ++ source.format.extension ∈ names) ∧
      (∀ (others : FileSystem Id) (found : List String), found.Perm names →
        others.listNames source.directory = Except.ok found →
          source.symbols others = Except.ok listed) ∧
      ∀ symbol ∈ listed,
        source.path symbol =
            Path.join source.directory (symbol ++ "." ++ source.format.extension) ∧
          Path.LeadsTo (source.path symbol) source.directory
            (symbol ++ "." ++ source.format.extension) ∧
          ∀ others : FileSystem Id,
            (others.readText (source.path symbol) = files.readText (source.path symbol) →
              source.fetch others symbol = source.fetch files symbol) ∧
            ∀ text, others.readText (source.path symbol) = Except.ok text →
              source.fetch others symbol =
                (readRows source.format (source.path symbol) text).map Bar.ofRows := by
  have hsymbols {others : FileSystem Id} {found : List String}
      (hfound : others.listNames source.directory = Except.ok found) :
      source.symbols others = Except.ok (symbolsAmong source.format found) := by
    simp only [symbols]
    rw [hfound]
    rfl
  refine ⟨_, hsymbols hnames, pairwise_symbolsAmong hdistinct, fun _ => mem_symbolsAmong_iff,
    fun others found hperm hfound => ?_, fun symbol hsymbol => ⟨rfl, ?_, fun others =>
      ⟨fun hsame => ?_, fun text => fetch_of_readText_eq_ok⟩⟩⟩
  · rw [hsymbols hfound, symbolsAmong_eq_of_perm hperm]
  · have hentry := (mem_symbolsAmong_iff.mp hsymbol).2
    exact Path.leadsTo_join _ (isEntry_of_whole (hwhole _ hentry))
  · rw [fetch_eq, fetch_eq, hsame]

/-- Symbols may have points in them and in front; a name that is only a point and the extension is
no symbol's, and the file of another format is not listed. -/
theorem symbols_of_a_directory_with_points :
    let tree : FileTree := ⟨[(["b.csv", "data"], .file .empty), ([".csv", "data"], .directory),
      (["a.b.csv", "data"], .file .empty), (["..csv", "data"], .directory),
      (["x.json", "data"], .file .empty), (["data"], .directory)]⟩
    ∃ listed, symbols tree.fileSystem ⟨"data/", .csv⟩ = Except.ok listed ∧
      "a.b" ∈ listed ∧ "." ∈ listed ∧ "" ∉ listed ∧ "x" ∉ listed ∧
      tree.resolve (path ⟨"data/", .csv⟩ ".") = .ok (["..csv", "data"], .directory) := by
  intro tree
  have hnames : tree.fileSystem.listNames "data/" =
      Except.ok ["b.csv", ".csv", "a.b.csv", "..csv", "x.json"] := rfl
  obtain ⟨listed, hlisted, -, hmem, -, hfetch⟩ :=
    symbols_are_what_can_be_fetched ⟨"data/", .csv⟩ tree.fileSystem hnames (by decide) (by decide)
  have hpoint : "." ∈ listed := (hmem ".").mpr (by decide)
  obtain ⟨node, hnode, hresolve⟩ := (hfetch "." hpoint).2.1.resolves tree ["data"] rfl (by decide)
  obtain rfl : node = .directory := by
    cases hnode
    rfl
  have hnone : "" ∉ listed := fun h => absurd ((hmem _).mp h) (by decide)
  have hother : "x" ∉ listed := fun h => absurd ((hmem _).mp h) (by decide)
  exact ⟨listed, hlisted, (hmem _).mpr (by decide), hpoint, hnone, hother, hresolve⟩

end Source

end ChartScript
