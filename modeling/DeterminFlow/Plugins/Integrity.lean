/-
  Plugins.Integrity
  **WHAT THE DIGEST OF A PLUGIN DETERMINES.**

  `plugin_content_sha256` walks a plugin tree in the order of the names and
  feeds a record for each entry to the hash: a tag, the relative path, and
  for a link its target, for a file its executable bit and its content.  The
  parts end with a NUL byte, and contents are written as they are.
-/
import Mathlib.Data.List.Lex
import Mathlib.Data.List.Sort

namespace DeterminFlow.Plugins

open List

/-! ## Trees -/

abbrev Byte : Type := Fin 256

abbrev Bytes : Type := List Byte

def slash : Byte := 47

/-- The name of a directory entry, in UTF-8.  The order of the bytes is the
order of the code points, which is Python's order of the texts. -/
structure Name where
  bytes : Bytes
  nonempty : bytes ≠ []
  noNul : 0 ∉ bytes
  noSlash : slash ∉ bytes
  deriving DecidableEq

lemma Name.bytes_injective : Function.Injective Name.bytes := by
  intro a b h
  cases a
  cases b
  simpa using h

instance : LinearOrder Name := LinearOrder.lift' Name.bytes Name.bytes_injective

/-- What `os.readlink` returns, in UTF-8. -/
structure LinkTarget where
  bytes : Bytes
  noNul : 0 ∉ bytes
  deriving DecidableEq

/-- What stands under a name. -/
inductive Node where
  /-- `executable`: one of the bits of `0o111` is set. -/
  | file (executable : Bool) (content : Bytes)
  | symlink (target : LinkTarget)
  | directory (entries : List (Name × Node))

/-- `directory.iterdir()`, in any order. -/
abbrev Listing : Type := List (Name × Node)

mutual

def Node.Distinct : Node → Prop
  | .directory entries => (entries.map Prod.fst).Nodup ∧ DistinctBelow entries
  | _ => True

def DistinctBelow : Listing → Prop
  | [] => True
  | (_, node) :: rest => node.Distinct ∧ DistinctBelow rest

end

structure PluginTree where
  entries : Listing
  nodup : (entries.map Prod.fst).Nodup
  below : DistinctBelow entries

/-! ## The stream -/

/-- `.git`. -/
def gitName : Bytes := [46, 103, 105, 116]

/-- `__pycache__`. -/
def pycacheName : Bytes := [95, 95, 112, 121, 99, 97, 99, 104, 101, 95, 95]

def Node.isDirectory : Node → Bool
  | .directory _ => true
  | _ => false

def skipped (name : Name) (node : Node) : Bool :=
  name.bytes = gitName || (name.bytes = pycacheName && node.isDirectory)

/-- `sorted(entries, key=name)`. -/
def sortByName (entries : Listing) : Listing :=
  entries.insertionSort (fun a b => a.1 ≤ b.1)

mutual

def Node.sorted : Node → Node
  | .directory entries => .directory (sortByName (sortedBelow entries))
  | node => node

def sortedBelow : Listing → Listing
  | [] => []
  | (name, node) :: rest => (name, node.sorted) :: sortedBelow rest

end

/-- `path.relative_to(root).as_posix().encode("utf-8")`. -/
def posixPath (path : List Name) : Bytes := [slash].intercalate (path.map Name.bytes)

/-- `b"1"` or `b"0"`. -/
def executableByte (executable : Bool) : Byte := if executable then 49 else 48

mutual

def feed (relative : List Name) : Node → Bytes
  | .symlink target => [76, 0] ++ posixPath relative ++ [0] ++ target.bytes ++ [0]
  | .directory entries => [68, 0] ++ posixPath relative ++ [0] ++ visit relative entries
  | .file executable content =>
    [70, 0] ++ posixPath relative ++ [0, executableByte executable, 0] ++ content ++ [0]

def visit (directory : List Name) : Listing → Bytes
  | [] => []
  | (name, node) :: rest =>
    (if skipped name node then [] else feed (directory ++ [name]) node) ++ visit directory rest

end

/-- What `plugin_content_sha256` feeds to the hash. -/
def contentStream (root : PluginTree) : Bytes := visit [] (sortByName (sortedBelow root.entries))

/-- `plugin_content_sha256`, for a hash function. -/
def pluginContentSha256 {δ : Type} (sha256 : Bytes → δ) (root : PluginTree) : δ :=
  sha256 (contentStream root)

/-! ## The entries of a package -/

inductive EntryKind where
  | directory
  | symlink (target : LinkTarget)
  | file (executable : Bool) (content : Bytes)
  deriving DecidableEq

abbrev Entry : Type := List Name × EntryKind

def under (name : Name) (entry : Entry) : Entry := (name :: entry.1, entry.2)

mutual

def Node.entriesAt : Node → List Entry
  | .file executable content => [([], .file executable content)]
  | .symlink target => [([], .symlink target)]
  | .directory entries => ([], .directory) :: entriesOf entries

def entriesOf : Listing → List Entry
  | [] => []
  | (name, node) :: rest =>
    (if skipped name node then [] else node.entriesAt.map (under name)) ++ entriesOf rest

end

namespace PluginTree

def walk (t : PluginTree) : List Entry := entriesOf (sortByName (sortedBelow t.entries))

end PluginTree

/-- The same relative paths, entry types, executable bits, link targets and
contents. -/
def SamePackage (t t' : PluginTree) : Prop :=
  ∀ entry, entry ∈ entriesOf t.entries ↔ entry ∈ entriesOf t'.entries

def recordOf (path : List Name) : EntryKind → Bytes
  | .directory => [68, 0] ++ posixPath path ++ [0]
  | .symlink target => [76, 0] ++ posixPath path ++ [0] ++ target.bytes ++ [0]
  | .file executable content =>
    [70, 0] ++ posixPath path ++ [0, executableByte executable, 0] ++ content ++ [0]

def records (directory : List Name) (entries : List Entry) : Bytes :=
  entries.flatMap (fun entry => recordOf (directory ++ entry.1) entry.2)

variable (directory : List Name) (front : List Entry) (t : PluginTree) (path : List Name)

@[simp] lemma records_nil : records directory [] = [] := rfl

@[simp] lemma records_cons (entry : Entry) (rest : List Entry) :
    records directory (entry :: rest) =
      recordOf (directory ++ entry.1) entry.2 ++ records directory rest := rfl

@[simp] lemma records_append (back : List Entry) :
    records directory (front ++ back) = records directory front ++ records directory back :=
  flatMap_append

lemma records_under (name : Name) (entries : List Entry) :
    records directory (entries.map (under name)) = records (directory ++ [name]) entries := by
  simp [records, under, flatMap_map]

mutual

lemma feed_eq (relative : List Name) :
    (node : Node) → feed relative node = records relative node.entriesAt
  | .file executable content => by
    simp [feed, Node.entriesAt, recordOf]
  | .symlink target => by
    simp [feed, Node.entriesAt, recordOf]
  | .directory entries => by
    rw [feed, visit_eq relative entries, Node.entriesAt, records_cons]
    simp [recordOf]

lemma visit_eq (directory : List Name) :
    (entries : Listing) → visit directory entries = records directory (entriesOf entries)
  | [] => rfl
  | (name, node) :: rest => by
    rw [visit, entriesOf, records_append, visit_eq directory rest]
    split
    · rfl
    rw [feed_eq (directory ++ [name]) node, records_under]

end

lemma contentStream_eq : contentStream t = records [] t.walk :=
  visit_eq [] _

/-! ## Where two streams can part -/

lemma posixPath_noNul : 0 ∉ posixPath path := by
  induction path with
  | nil => simp [posixPath]
  | cons name rest ih =>
    cases rest with
    | nil => simpa [posixPath] using name.noNul
    | cons next more =>
      have hsplit : posixPath (name :: next :: more) =
          name.bytes ++ slash :: posixPath (next :: more) := by
        simp [posixPath, List.intercalate]
      rw [hsplit, mem_append, mem_cons]
      rintro (h | h | h)
      · exact name.noNul h
      · cases h
      exact ih h

lemma posixPath_injective {a b : List Name} (ha : a ≠ []) (hb : b ≠ [])
    (h : posixPath a = posixPath b) : a = b := by
  have hslash : ∀ path : List Name, ∀ part ∈ path.map Name.bytes, slash ∉ part := by
    intro path part hpart
    obtain ⟨name, _, rfl⟩ := mem_map.1 hpart
    exact name.noSlash
  have hparts : a.map Name.bytes = b.map Name.bytes := by
    rw [← splitOn_intercalate slash (hslash a) (by simpa using ha),
      ← splitOn_intercalate slash (hslash b) (by simpa using hb)]
    exact congrArg (List.splitOn slash) h
  exact Name.bytes_injective.list_map hparts

lemma field_inj {a b s t : Bytes} (ha : 0 ∉ a) (hb : 0 ∉ b) (h : a ++ 0 :: s = b ++ 0 :: t) :
    a = b ∧ s = t := by
  induction a generalizing b with
  | nil =>
    cases b with
    | nil => exact ⟨rfl, (cons.inj h).2⟩
    | cons => exact absurd ((cons.inj h).1 ▸ mem_cons_self) hb
  | cons x rest ih =>
    cases b with
    | nil => exact absurd ((cons.inj h).1 ▸ mem_cons_self) ha
    | cons =>
      obtain ⟨rfl, htail⟩ := cons.inj h
      obtain ⟨rfl, hst⟩ := ih (fun hm => ha (mem_cons_of_mem _ hm))
        (fun hm => hb (mem_cons_of_mem _ hm)) htail
      exact ⟨rfl, hst⟩

lemma executableByte_injective {x y : Bool} (h : executableByte x = executableByte y) :
    x = y := by
  revert h
  revert x y
  decide

def EntryKind.tag : EntryKind → Byte
  | .directory => 68
  | .symlink _ => 76
  | .file _ _ => 70

def EntryKind.payload : EntryKind → Bytes
  | .directory => []
  | .symlink target => target.bytes ++ [0]
  | .file executable content => executableByte executable :: 0 :: (content ++ [0])

lemma recordOf_eq (kind : EntryKind) :
    recordOf path kind = kind.tag :: 0 :: (posixPath path ++ 0 :: kind.payload) := by
  cases kind <;> simp [recordOf, EntryKind.tag, EntryKind.payload]

lemma recordOf_inj {path path' : List Name} {kind kind' : EntryKind} {s s' : Bytes}
    (hpath : path ≠ []) (hpath' : path' ≠ [])
    (h : recordOf path kind ++ s = recordOf path' kind' ++ s') :
    path = path' ∧ ((kind = kind' ∧ s = s') ∨ ∃ executable content content',
      kind = .file executable content ∧ kind' = .file executable content' ∧
      content ++ 0 :: s = content' ++ 0 :: s') := by
  rw [recordOf_eq, recordOf_eq] at h
  simp only [cons_append, append_assoc, cons.injEq, true_and] at h
  obtain ⟨htag, hrest⟩ := h
  obtain ⟨htext, hpayload⟩ := field_inj (posixPath_noNul path) (posixPath_noNul path') hrest
  refine ⟨posixPath_injective hpath hpath' htext, ?_⟩
  cases kind with
  | directory =>
    cases kind' with
    | directory => exact .inl ⟨rfl, hpayload⟩
    | _ => exact absurd htag (by dsimp only [EntryKind.tag]; decide)
  | symlink target =>
    cases kind' with
    | symlink target' =>
      simp only [EntryKind.payload, append_assoc, singleton_append] at hpayload
      obtain ⟨hbytes, hs⟩ := field_inj target.noNul target'.noNul hpayload
      have htarget : target = target' := by
        cases target
        cases target'
        simpa using hbytes
      exact .inl ⟨htarget ▸ rfl, hs⟩
    | _ => exact absurd htag (by dsimp only [EntryKind.tag]; decide)
  | file executable content =>
    cases kind' with
    | file executable' content' =>
      simp only [EntryKind.payload, cons_append, append_assoc, nil_append,
        cons.injEq, true_and] at hpayload
      obtain rfl := executableByte_injective hpayload.1
      exact .inr ⟨executable, content, content', rfl, rfl, hpayload.2⟩
    | _ => exact absurd htag (by dsimp only [EntryKind.tag]; decide)

/-- Two lists of entries with one stream that first differ in the content of
a file. -/
def PartAtContent (l l' : List Entry) : Prop :=
  ∃ front path executable content content' rest rest',
    l = front ++ (path, EntryKind.file executable content) :: rest ∧
    l' = front ++ (path, EntryKind.file executable content') :: rest' ∧ content ≠ content' ∧
    content ++ 0 :: records [] rest = content' ++ 0 :: records [] rest'

lemma PartAtContent.cons {l l' : List Entry} (e : Entry) (h : PartAtContent l l') :
    PartAtContent (e :: l) (e :: l') := by
  obtain ⟨front, path, x, c, c', r, r', rfl, rfl, hne, heq⟩ := h
  exact ⟨e :: front, path, x, c, c', r, r', rfl, rfl, hne, heq⟩

lemma records_part {l l' : List Entry} (hl : ∀ e ∈ l, e.1 ≠ []) (hl' : ∀ e ∈ l', e.1 ≠ [])
    (h : records [] l = records [] l') : l = l' ∨ PartAtContent l l' := by
  induction l generalizing l' with
  | nil =>
    cases l' with
    | nil => exact .inl rfl
    | cons =>
      rw [records_cons, recordOf_eq] at h
      cases h
  | cons e rest ih =>
    cases l' with
    | nil =>
      rw [records_cons, recordOf_eq] at h
      cases h
    | cons e' rest' =>
      rw [records_cons, records_cons] at h
      obtain ⟨hpath, hkind⟩ := recordOf_inj (hl e mem_cons_self)
        (hl' e' mem_cons_self) h
      obtain ⟨path, kind⟩ := e
      obtain ⟨path', kind'⟩ := e'
      obtain rfl : path = path' := hpath
      have hrest : records [] rest = records [] rest' → rest = rest' ∨ PartAtContent rest rest' :=
        ih (fun e he => hl e (mem_cons_of_mem _ he))
          (fun e he => hl' e (mem_cons_of_mem _ he))
      rcases hkind with ⟨hk, hs⟩ | ⟨x, c, c', hk, hk', heq⟩
      · obtain rfl : kind = kind' := hk
        rcases hrest hs with rfl | hpart
        · exact .inl rfl
        exact .inr (hpart.cons _)
      obtain rfl : kind = .file x c := hk
      obtain rfl : kind' = .file x c' := hk'
      by_cases hc : c = c'
      · subst hc
        rcases hrest (cons.inj (append_cancel_left heq)).2 with rfl | hpart
        · exact .inl rfl
        exact .inr (hpart.cons _)
      exact .inr ⟨[], path, x, c, c', rest, rest', rfl, rfl, hc, heq⟩

lemma contents_part {c c' s s' : Bytes} (hne : c ≠ c') (h : c ++ 0 :: s = c' ++ 0 :: s') :
    (∃ more, c' = c ++ 0 :: more ∧ s = more ++ 0 :: s') ∨
      ∃ more, c = c' ++ 0 :: more ∧ s' = more ++ 0 :: s := by
  rcases append_eq_append_iff.1 h with ⟨more, hc', hs⟩ | ⟨more, hc, hs⟩
  · cases more with
    | nil => exact absurd (by simpa using hc'.symm) hne
    | cons x more =>
      rw [cons_append, cons.injEq] at hs
      obtain ⟨rfl, hs⟩ := hs
      exact .inl ⟨more, hc', hs⟩
  cases more with
  | nil => exact absurd (by simpa using hc) hne
  | cons x more =>
    rw [cons_append, cons.injEq] at hs
    obtain ⟨rfl, hs⟩ := hs
    exact .inr ⟨more, hc, hs⟩

/-! ## The order of the walk -/

mutual

def Node.Ascending : Node → Prop
  | .directory entries => (entries.map Prod.fst).Pairwise (· < ·) ∧ AscendingBelow entries
  | _ => True

def AscendingBelow : Listing → Prop
  | [] => True
  | (_, node) :: rest => node.Ascending ∧ AscendingBelow rest

end

lemma ascendingBelow_iff {entries : Listing} :
    AscendingBelow entries ↔ ∀ e ∈ entries, e.2.Ascending := by
  induction entries with
  | nil => simp [AscendingBelow]
  | cons e rest ih => simp [AscendingBelow, ih]

lemma mem_sortByName {entries : Listing} {e : Name × Node} :
    e ∈ sortByName entries ↔ e ∈ entries := mem_insertionSort _

lemma sortByName_perm (entries : Listing) : (sortByName entries).Perm entries :=
  perm_insertionSort _ entries

lemma sortByName_ascending {entries : Listing} (hnodup : (entries.map Prod.fst).Nodup) :
    ((sortByName entries).map Prod.fst).Pairwise (· < ·) := by
  have hle : (sortByName entries).Pairwise (fun a b => a.1 ≤ b.1) := by
    have : Std.Total (fun a b : Name × Node => a.1 ≤ b.1) := ⟨fun a b => le_total a.1 b.1⟩
    have : IsTrans (Name × Node) (fun a b => a.1 ≤ b.1) := ⟨fun _ _ _ => le_trans⟩
    exact pairwise_insertionSort _ entries
  have hne : ((sortByName entries).map Prod.fst).Pairwise (· ≠ ·) :=
    ((sortByName_perm entries).map Prod.fst).nodup_iff.2 hnodup
  rw [pairwise_map] at hne ⊢
  exact (hle.and hne).imp (fun h => lt_of_le_of_ne h.1 h.2)

lemma sortByName_eq {entries : Listing} (h : (entries.map Prod.fst).Pairwise (· < ·)) :
    sortByName entries = entries := by
  rw [pairwise_map] at h
  exact (h.imp le_of_lt).insertionSort_eq

lemma sortedBelow_names (entries : Listing) :
    (sortedBelow entries).map Prod.fst = entries.map Prod.fst := by
  induction entries with
  | nil => rfl
  | cons e rest ih => simp [sortedBelow, ih]

mutual

lemma Node.sorted_ascending : (node : Node) → node.Distinct → node.sorted.Ascending
  | .file _ _, _ => trivial
  | .symlink _, _ => trivial
  | .directory entries, h => by
    refine ⟨sortByName_ascending ?_, ascendingBelow_iff.2 (fun e he => ?_)⟩
    · rw [sortedBelow_names]
      exact h.1
    exact ascendingBelow_iff.1 (sortedBelow_ascending entries h.2) e (mem_sortByName.1 he)

lemma sortedBelow_ascending :
    (entries : Listing) → DistinctBelow entries → AscendingBelow (sortedBelow entries)
  | [], _ => trivial
  | (_, node) :: rest, h => ⟨node.sorted_ascending h.1, sortedBelow_ascending rest h.2⟩

end

mutual

lemma Node.sorted_eq : (node : Node) → node.Ascending → node.sorted = node
  | .file _ _, _ => rfl
  | .symlink _, _ => rfl
  | .directory entries, h => by
    rw [Node.sorted, sortedBelow_eq entries h.2, sortByName_eq h.1]

lemma sortedBelow_eq :
    (entries : Listing) → AscendingBelow entries → sortedBelow entries = entries
  | [], _ => rfl
  | (name, node) :: rest, h => by
    rw [sortedBelow, node.sorted_eq h.1, sortedBelow_eq rest h.2]

end

mutual

lemma Node.Ascending.distinct : {node : Node} → node.Ascending → node.Distinct
  | .file _ _, _ => trivial
  | .symlink _, _ => trivial
  | .directory _, h => ⟨h.1.imp ne_of_lt, AscendingBelow.distinct h.2⟩

lemma AscendingBelow.distinct : {entries : Listing} → AscendingBelow entries →
    DistinctBelow entries
  | [], _ => trivial
  | _ :: _, h => ⟨h.1.distinct, AscendingBelow.distinct h.2⟩

end

def treeOf (entries : Listing) (hnames : (entries.map Prod.fst).Pairwise (· < ·))
    (hbelow : AscendingBelow entries) : PluginTree where
  entries := entries
  nodup := hnames.imp ne_of_lt
  below := hbelow.distinct

lemma treeOf_walk {entries : Listing} (hnames : (entries.map Prod.fst).Pairwise (· < ·))
    (hbelow : AscendingBelow entries) : (treeOf entries hnames hbelow).walk = entriesOf entries := by
  unfold PluginTree.walk treeOf
  rw [sortedBelow_eq entries hbelow, sortByName_eq hnames]

lemma PluginTree.sorted_ascending :
    ((sortByName (sortedBelow t.entries)).map Prod.fst).Pairwise (· < ·) ∧
      AscendingBelow (sortByName (sortedBelow t.entries)) := by
  refine ⟨sortByName_ascending ?_, ascendingBelow_iff.2 (fun e he => ?_)⟩
  · rw [sortedBelow_names]
    exact t.nodup
  exact ascendingBelow_iff.1 (sortedBelow_ascending _ t.below) e (mem_sortByName.1 he)

/-! ## Two walks of one package are equal -/

def entriesUnder (name : Name) (node : Node) : List Entry :=
  if skipped name node then [] else node.entriesAt.map (under name)

lemma entriesOf_cons (name : Name) (node : Node) (rest : Listing) :
    entriesOf ((name, node) :: rest) = entriesUnder name node ++ entriesOf rest := rfl

lemma entriesOf_eq_flatMap (entries : Listing) :
    entriesOf entries = entries.flatMap (fun e => entriesUnder e.1 e.2) := by
  induction entries with
  | nil => rfl
  | cons e rest ih => rw [entriesOf_cons, ih, flatMap_cons]

lemma skipped_sorted (name : Name) (node : Node) : skipped name node.sorted = skipped name node := by
  cases node <;> rfl

mutual

lemma Node.entriesAt_sorted : (node : Node) → node.sorted.entriesAt.Perm node.entriesAt
  | .file _ _ => .refl _
  | .symlink _ => .refl _
  | .directory entries => by
    refine List.Perm.cons _ ?_
    rw [entriesOf_eq_flatMap (sortByName _)]
    refine ((sortByName_perm _).flatMap_right _).trans ?_
    rw [← entriesOf_eq_flatMap]
    exact entriesOf_sortedBelow entries

lemma entriesOf_sortedBelow :
    (entries : Listing) → (entriesOf (sortedBelow entries)).Perm (entriesOf entries)
  | [] => .refl _
  | (name, node) :: rest => by
    rw [sortedBelow, entriesOf_cons, entriesOf_cons]
    refine List.Perm.append ?_ (entriesOf_sortedBelow rest)
    unfold entriesUnder
    rw [skipped_sorted]
    split
    · exact .refl _
    exact node.entriesAt_sorted.map _

end

lemma PluginTree.walk_perm : t.walk.Perm (entriesOf t.entries) := by
  unfold PluginTree.walk
  rw [entriesOf_eq_flatMap (sortByName _)]
  refine ((sortByName_perm _).flatMap_right _).trans ?_
  rw [← entriesOf_eq_flatMap]
  exact entriesOf_sortedBelow t.entries

lemma mem_entriesUnder {name : Name} {node : Node} {e : Entry} (h : e ∈ entriesUnder name node) :
    ∃ path, e.1 = name :: path := by
  unfold entriesUnder at h
  split at h
  · cases h
  obtain ⟨e, _, rfl⟩ := mem_map.1 h
  exact ⟨e.1, rfl⟩

lemma mem_entriesOf {entries : Listing} {e : Entry} (h : e ∈ entriesOf entries) :
    ∃ name ∈ entries.map Prod.fst, ∃ path, e.1 = name :: path := by
  rw [entriesOf_eq_flatMap, mem_flatMap] at h
  obtain ⟨under, hmem, he⟩ := h
  exact ⟨under.1, mem_map_of_mem hmem, mem_entriesUnder he⟩

mutual

lemma Node.entriesAt_ascending : (node : Node) → node.Ascending →
    node.entriesAt.Pairwise (fun a b => a.1 < b.1)
  | .file _ _, _ => pairwise_singleton _ _
  | .symlink _, _ => pairwise_singleton _ _
  | .directory entries, h => by
    refine pairwise_cons.2 ⟨fun e he => ?_, entriesOf_ascending entries h.1 h.2⟩
    obtain ⟨name, _, path, hpath⟩ := mem_entriesOf he
    rw [hpath]
    exact nil_lt_cons name path

lemma entriesOf_ascending : (entries : Listing) →
    (entries.map Prod.fst).Pairwise (· < ·) → AscendingBelow entries →
    (entriesOf entries).Pairwise (fun a b => a.1 < b.1)
  | [], _, _ => List.Pairwise.nil
  | (name, node) :: rest, hnames, hbelow => by
    rw [map_cons, pairwise_cons] at hnames
    rw [entriesOf_cons]
    refine pairwise_append.2 ⟨?_, entriesOf_ascending rest hnames.2 hbelow.2, ?_⟩
    · unfold entriesUnder
      split
      · exact List.Pairwise.nil
      refine pairwise_map.2 ((node.entriesAt_ascending hbelow.1).imp ?_)
      intro a b hab
      exact cons_lt_cons_iff.2 (.inr ⟨rfl, hab⟩)
    intro a ha b hb
    obtain ⟨_, hpath⟩ := mem_entriesUnder ha
    obtain ⟨other, hother, _, hpath'⟩ := mem_entriesOf hb
    rw [hpath, hpath']
    exact cons_lt_cons_iff.2 (.inl (hnames.1 other hother))

end

lemma PluginTree.walk_ascending : t.walk.Pairwise (fun a b => a.1 < b.1) :=
  entriesOf_ascending _ t.sorted_ascending.1 t.sorted_ascending.2

lemma PluginTree.walk_path_ne_nil : ∀ e ∈ t.walk, e.1 ≠ [] := by
  intro e he
  obtain ⟨name, _, path, hpath⟩ := mem_entriesOf he
  rw [hpath]
  exact cons_ne_nil name path

lemma samePackage_iff {t t' : PluginTree} : SamePackage t t' ↔ t.walk = t'.walk := by
  constructor
  · intro hsame
    have hmem : ∀ e, e ∈ t.walk ↔ e ∈ t'.walk := fun e =>
      t.walk_perm.mem_iff.trans ((hsame e).trans t'.walk_perm.mem_iff.symm)
    have hnodup : ∀ t : PluginTree, t.walk.Nodup := fun t =>
      t.walk_ascending.imp (fun h he => absurd (congrArg Prod.fst he) (ne_of_lt h))
    have hperm := (perm_ext_iff_of_nodup (hnodup t) (hnodup t')).2 hmem
    exact hperm.eq_of_pairwise (fun _ _ _ _ hab hba => absurd hba (lt_asymm hab))
      t.walk_ascending t'.walk_ascending
  intro hwalk e
  rw [← t.walk_perm.mem_iff, hwalk, t'.walk_perm.mem_iff]

/-! ## Cutting a package after a file -/

lemma skipped_congr {name : Name} {node node' : Node}
    (h : node'.isDirectory = node.isDirectory) : skipped name node' = skipped name node := by
  unfold skipped
  rw [h]

mutual

lemma Node.exists_cut {front back : List Entry} {path : List Name} {executable : Bool}
    {content : Bytes} (other : Bytes) : (node : Node) → node.Ascending →
    node.entriesAt = front ++ (path, .file executable content) :: back →
    ∃ node' : Node, node'.Ascending ∧ node'.isDirectory = node.isDirectory ∧
      node'.entriesAt = front ++ [(path, .file executable other)]
  | .file x c, _, h => by
    cases front with
    | nil =>
      obtain ⟨hentry, _⟩ := cons.inj h
      cases hentry
      exact ⟨.file executable other, trivial, rfl, rfl⟩
    | cons => exact absurd (cons.inj h).2 (by simp)
  | .symlink target, _, h => by
    cases front with
    | nil => cases (cons.inj h).1
    | cons => exact absurd (cons.inj h).2 (by simp)
  | .directory entries, hasc, h => by
    cases front with
    | nil => cases (cons.inj h).1
    | cons =>
      obtain ⟨rfl, hrest⟩ := cons.inj h
      obtain ⟨entries', hbelow, hprefix, hentries⟩ :=
        exists_cut other entries hasc.2 hrest
      refine ⟨.directory entries', ⟨hasc.1.sublist hprefix.sublist, hbelow⟩, rfl, ?_⟩
      rw [Node.entriesAt, hentries]
      rfl

lemma exists_cut {front back : List Entry} {path : List Name} {executable : Bool}
    {content : Bytes} (other : Bytes) : (entries : Listing) → AscendingBelow entries →
    entriesOf entries = front ++ (path, .file executable content) :: back →
    ∃ entries' : Listing, AscendingBelow entries' ∧
      entries'.map Prod.fst <+: entries.map Prod.fst ∧
      entriesOf entries' = front ++ [(path, .file executable other)]
  | [], _, h => absurd h (by simp [entriesOf])
  | (name, node) :: rest, hasc, h => by
    rw [entriesOf_cons, append_eq_append_iff] at h
    -- the file is in the rest of the listing, or under this name
    have hlater : ∀ front', front = entriesUnder name node ++ front' →
        entriesOf rest = front' ++ (path, .file executable content) :: back →
        ∃ entries' : Listing, AscendingBelow entries' ∧
          entries'.map Prod.fst <+: ((name, node) :: rest).map Prod.fst ∧
          entriesOf entries' = front ++ [(path, .file executable other)] := by
      intro front' hfront hrest
      obtain ⟨rest', hbelow, hprefix, hentries⟩ := exists_cut other rest hasc.2 hrest
      refine ⟨(name, node) :: rest', ⟨hasc.1, hbelow⟩, ?_, ?_⟩
      · exact (prefix_cons_inj name).2 hprefix
      rw [entriesOf_cons, hentries, hfront, append_assoc]
    rcases h with ⟨front', hfront, hrest⟩ | ⟨more, hunder, hrest⟩
    · exact hlater front' hfront hrest
    cases more with
    | nil =>
      refine hlater [] (by simpa using hunder.symm) ?_
      simpa using hrest.symm
    | cons e more =>
      obtain ⟨rfl, _⟩ := cons.inj hrest
      by_cases hskip : skipped name node = true
      · simp [entriesUnder, hskip] at hunder
      have hmap : node.entriesAt.map (under name) =
          front ++ (path, .file executable content) :: more := by
        simpa [entriesUnder, hskip] using hunder
      obtain ⟨front', _, hentries, rfl, htail⟩ := map_eq_append_iff.1 hmap
      obtain ⟨⟨_, _⟩, _, rfl, hentry, _⟩ := map_eq_cons_iff.1 htail
      obtain ⟨rfl, rfl⟩ := Prod.mk.inj hentry
      obtain ⟨node', hnode', hdirectory, hcut⟩ :=
        Node.exists_cut other node hasc.1 hentries
      refine ⟨[(name, node')], ⟨hnode', trivial⟩, ?_, ?_⟩
      · exact ⟨rest.map Prod.fst, rfl⟩
      have hskip' : skipped name node' = false := by
        rw [skipped_congr hdirectory]
        exact Bool.not_eq_true _ ▸ hskip
      simp [entriesOf, hskip', hcut, under]

end

lemma PluginTree.exists_cut {t : PluginTree} {front back : List Entry} {path : List Name}
    {executable : Bool} {content : Bytes} (other : Bytes)
    (h : t.walk = front ++ (path, .file executable content) :: back) :
    ∃ t' : PluginTree, t'.walk = front ++ [(path, .file executable other)] := by
  obtain ⟨hnames, hbelow⟩ := t.sorted_ascending
  obtain ⟨entries', hbelow', hprefix, hentries⟩ := Plugins.exists_cut other _ hbelow h
  refine ⟨treeOf entries' (hnames.sublist hprefix.sublist) hbelow', ?_⟩
  rw [treeOf_walk, hentries]

/-! ## Which packages the stream determines -/

/-- **No entry follows a file, and the last file does not end with the
records of entries that could follow it.** -/
def PluginTree.NothingAbsorbed (t : PluginTree) : Prop :=
  ∀ front path executable content back,
    t.walk = front ++ (path, EntryKind.file executable content) :: back →
      back = [] ∧ ∀ before hidden (t' : PluginTree) more, content = before ++ 0 :: hidden →
        t'.walk = front ++ (path, EntryKind.file executable before) :: more →
          records [] more ≠ hidden ++ [0]

lemma recordOf_ends (kind : EntryKind) : ∃ body, recordOf path kind = body ++ [0] := by
  cases kind with
  | _ => exact ⟨_, rfl⟩

lemma records_ends {entries : List Entry} (h : entries ≠ []) :
    ∃ body, records [] entries = body ++ [0] := by
  obtain ⟨front, last, rfl⟩ : ∃ front last, entries = front ++ [last] :=
    ⟨_, _, (dropLast_append_getLast h).symm⟩
  obtain ⟨body, hbody⟩ := recordOf_ends last.1 last.2
  refine ⟨records [] front ++ body, ?_⟩
  simp [hbody]

lemma records_file (more : List Entry) (path : List Name) (executable : Bool) (content : Bytes) :
    records [] (front ++ (path, .file executable content) :: more) =
      records [] front ++ ([70, 0] ++ posixPath path ++ [0, executableByte executable, 0] ++
        (content ++ 0 :: records [] more)) := by
  simp [recordOf]

/-- **The stream of a package belongs to no other package, exactly when it
absorbs nothing.** -/
theorem stream_determines_iff (t : PluginTree) :
    (∀ t', contentStream t' = contentStream t → SamePackage t t') ↔ t.NothingAbsorbed := by
  constructor
  · intro hunique front path executable content back hwalk
    -- a package with the same stream has the same walk
    have hwalks : ∀ t' : PluginTree, records [] t'.walk = records [] t.walk →
        t.walk = t'.walk := by
      intro t' h
      exact samePackage_iff.1 (hunique t' (by rw [contentStream_eq, contentStream_eq, h]))
    have hback : back = [] := by
      by_contra hback
      obtain ⟨body, hbody⟩ := records_ends hback
      obtain ⟨t', ht'⟩ := t.exists_cut (content ++ 0 :: body) hwalk
      have hsame := hwalks t' (by
        rw [ht', hwalk, records_file, records_file, hbody]
        simp)
      rw [hwalk, ht', append_cancel_left_eq, cons.injEq] at hsame
      exact hback hsame.2
    subst hback
    refine ⟨rfl, ?_⟩
    intro _ hidden t' more hcontent ht' hmore
    have hsame := hwalks t' (by
      rw [ht', hwalk, records_file, records_file, hmore, hcontent]
      simp)
    rw [hwalk, ht', append_cancel_left_eq, cons.injEq, Prod.mk.injEq,
      EntryKind.file.injEq] at hsame
    have hlength := congrArg List.length (hsame.1.2.2.symm.trans hcontent)
    simp at hlength
  intro habsorbed t' hstream
  rw [contentStream_eq, contentStream_eq] at hstream
  refine samePackage_iff.2 ?_
  rcases records_part t.walk_path_ne_nil t'.walk_path_ne_nil hstream.symm with hwalk | hpart
  · exact hwalk
  obtain ⟨front, path, executable, content, content', rest, rest', hwalk, hwalk', hne, heq⟩ :=
    hpart
  obtain ⟨rfl, habsent⟩ := habsorbed front path executable content rest hwalk
  rcases contents_part hne heq with ⟨more, _, hrest⟩ | ⟨hidden, hcontent, hrest⟩
  · exact absurd hrest (by simp)
  exact absurd hrest (habsent content' hidden t' rest' hcontent hwalk')

/-! ## Two packages with one stream -/

/-- The files `a` with `x` and `b` with `y`. -/
def twoFiles : PluginTree where
  entries :=
    [(⟨[97], by decide, by decide, by decide⟩, .file false [120]),
      (⟨[98], by decide, by decide, by decide⟩, .file false [121])]
  nodup := by decide
  below := ⟨trivial, trivial, trivial⟩

/-- The file `a` alone, whose content goes on with the record of `b`. -/
def oneFile : PluginTree where
  entries :=
    [(⟨[97], by decide, by decide, by decide⟩,
      .file false [120, 0, 70, 0, 98, 0, 48, 0, 121])]
  nodup := by decide
  below := ⟨trivial, trivial⟩

/-- **The stream does not determine the package.** -/
theorem twoFiles_not_determined :
    ¬ ∀ t t' : PluginTree, contentStream t = contentStream t' → SamePackage t t' := by
  intro hall
  have hsame := samePackage_iff.1 (hall twoFiles oneFile (by decide))
  exact absurd (congrArg List.length hsame) (by decide)

end DeterminFlow.Plugins
