/-
  Workflow.Expansion
  **EXPANDING A TEMPLATE.**

  `resolve_placeholders` expands the values of the variables twice, each in the
  values of the others, and then replaces the placeholders of the content one
  after the other.  The loop over a value ends at the first placeholder that has
  no value.
-/
import DeterminFlow.Workflow.NestedValues

namespace DeterminFlow.Workflow.Placeholders

open Library PyText Workflow.Condition List Dict
open Option (getD_some map_some not_isSome some.inj some_ne_none)

attribute [local instance] lawfulBEq_text

/-! ## What is expanded -/

/-- A value of a variable: nothing, a text, or a value of another type by its
truth and by what `str` and `json.dumps` write. -/
inductive Value where
  | null
  | text (text : Text)
  | other (truthy : Bool) (shown dumped : Text)
  deriving DecidableEq

def placeholderText : Value → Text
  | .null => []
  | .text text => text
  | .other _ _ dumped => dumped

structure Variable where
  key : Text
  type : Text
  required : Bool
  default : Value
  deriving DecidableEq

/-- What reading a file of the workspace gives. -/
inductive FileRead where
  | outside
  | missing (path : Text)
  | found (text : Text)
  | failed (message : String)
  deriving DecidableEq

/-- A list or a dictionary that `json.loads` returns, by what `str` writes for
its values. -/
inductive Parsed where
  | list (items : List Text)
  | dict (entries : Dict Text Text)
  deriving DecidableEq

/-- The file system and the JSON parser. -/
structure Outside where
  readFile : Text → FileRead
  loads : Text → Option Parsed

section
variable (w : WordClass) (out : Outside)

def tryParseJson (value : Text) : Option Parsed :=
  if strip value = [] then none else out.loads (strip value)

def readFileVariable (resolved : Dict Text Text) (v : Variable) :
    Except String (Dict Text Text) :=
  if v.type ≠ "file".toList then .ok resolved
  else
    match resolved.get? v.key with
    | none => .ok resolved
    | some value =>
      if strip value = [] then .ok (resolved.set v.key [])
      else
        match out.readFile (strip value) with
        | .outside => .error ("Workflow 文件路径越出 workspace: " ++ String.ofList (strip value))
        | .found text => .ok (resolved.set v.key text)
        | .missing path =>
          if v.required then
            .error ("文件变量 " ++ String.ofList v.key ++ " 必填但文件不存在: " ++ String.ofList path)
          else .ok (resolved.set v.key [])
        | .failed message =>
          if v.required then .error message else .ok (resolved.set v.key [])

/-- `_NESTED_LIST_RE` at the beginning of a text: variable, index, and the text behind. -/
def listAt (text : Text) : Option ((Text × Text) × Text) :=
  let key := (text.drop 2).takeWhile w.isWord
  let rest := (text.drop 2).dropWhile w.isWord
  let index := (rest.drop 1).takeWhile w.isWord
  let behind := (rest.drop 1).dropWhile w.isWord
  if text.take 2 = ['{', '{'] ∧ key ≠ [] ∧ rest.head? = some '[' ∧ index ≠ []
      ∧ behind.take 3 = [']', '}', '}'] then
    some ((key, index), behind.drop 3)
  else none

/-- `_NESTED_DICT_RE` at the beginning of a text: variable, key, and the text behind. -/
def dictAt (text : Text) : Option ((Text × Text) × Text) :=
  let key := (text.drop 2).takeWhile w.isWord
  let rest := (text.drop 2).dropWhile w.isWord
  let field := (rest.drop 1).takeWhile w.isWord
  let behind := (rest.drop 1).dropWhile w.isWord
  if text.take 2 = ['{', '{'] ∧ key ≠ [] ∧ rest.head? = some '.' ∧ field ≠ []
      ∧ behind.take 2 = ['}', '}'] then
    some ((key, field), behind.drop 2)
  else none

def findIterFuel {α : Type} (at? : Text → Option (α × Text)) : Nat → Text → List α
  | 0, _ => []
  | _ + 1, [] => []
  | fuel + 1, c :: rest =>
    match at? (c :: rest) with
    | some (found, after) => found :: findIterFuel at? fuel after
    | none => findIterFuel at? fuel rest

/-- The matches of a pattern (`finditer`). -/
def findIter {α : Type} (at? : Text → Option (α × Text)) (text : Text) : List α :=
  findIterFuel at? text.length text

def listItem (resolved : Dict Text Text) (key index value : Text) : Except String Text :=
  let indexText := (resolved.get? index).getD index
  match intOf? (String.ofList indexText) with
  | none => .error ("列表索引不是有效数字: " ++ String.ofList key ++ "[" ++ String.ofList indexText ++ "]")
  | some i =>
    match tryParseJson out value with
    | some (.dict _) => .error ("变量 " ++ String.ofList key ++ " 不是列表类型")
    | some (.list items) =>
      let refused : Except String Text := .error ("列表索引越界: " ++ String.ofList key ++ "["
        ++ toString i ++ "] (len=" ++ toString items.length ++ ")")
      if i < 0 then refused else (items[i.toNat]?.map Except.ok).getD refused
    | none =>
      let lines := ((splitAt '\n' value).map strip).filter (· ≠ [])
      let refused : Except String Text := .error ("变量 " ++ String.ofList key ++ " 按行分割后索引 "
        ++ toString i ++ " 越界 (len=" ++ toString lines.length ++ ")")
      if '\n' ∉ value then .error ("变量 " ++ String.ofList key ++ " 不是列表类型")
      else if i < 0 then refused
      else (lines[i.toNat]?.map Except.ok).getD refused

/-- The pass over `{{list[index]}}`. -/
def listPass (resolved : Dict Text Text) (content : Text) : Except String Text :=
  (findIter (listAt w) content).foldlM (fun result found =>
    match resolved.get? found.1 with
    | none => .ok result
    | some value =>
      (listItem out resolved found.1 found.2 value).map (fun item =>
        replaceAll (['{', '{'] ++ (found.1 ++ '[' :: (found.2 ++ [']', '}', '}']))) item result))
    content

/-- The pass over `{{dict.key}}`. -/
def dictPass (resolved : Dict Text Text) (content : Text) : Except String Text :=
  (findIter (dictAt w) content).foldlM (fun result found =>
    match resolved.get? found.1 with
    | none => .ok result
    | some value =>
      match tryParseJson out value with
      | none =>
        .error ("变量 " ++ String.ofList found.1 ++ " 不是字典类型（无法解析为 JSON）")
      | some (.list _) => .error ("变量 " ++ String.ofList found.1 ++ " 不是字典类型")
      | some (.dict entries) =>
        .ok (replaceAll (placeholder (found.1 ++ '.' :: found.2))
          ((entries.get? found.2).getD []) result))
    content

def holes (text : Text) : List Text :=
  (scan w text).filterMap (fun piece =>
    match piece with
    | .hole key => some key
    | .chr _ => none)

/-- The last pass: each placeholder of the content that has a value is replaced
in the text so far. -/
def lastPass (resolved : Dict Text Text) (content : Text) : Text :=
  (holes w content).foldl (fun result key =>
    match resolved.get? key with
    | none => result
    | some value => replaceAll (placeholder key) value result) content

def expandValue (fuel : Nat) (values : Dict Text Text) (value fallback : Text) : Option Text :=
  (resolveNestedValue w values fuel [] 0 value).map (fun r =>
    match r with
    | .ok text => text
    | .error _ => fallback)

def secondStep (fuel : Nat) (fileKeys : List Text) (resolved : Dict Text Text)
    (entry : Text × Text) : Option (Dict Text Text) :=
  if entry.1 ∈ fileKeys ∨ entry.2 = [] ∨ hasOpening entry.2 = false then some resolved
  else
    (resolveNestedValue w resolved fuel [] 0 entry.2).map (fun r =>
      match r with
      | .ok text => resolved.set entry.1 text
      | .error _ => resolved)

def fileKeys (vars : List Variable) : List Text :=
  (vars.filter (fun v => v.type = "file".toList)).map Variable.key

/-- `string_values` -/
def texts (values : Dict Text Value) : Dict Text Text :=
  values.mapValues (fun _ value => placeholderText value)

/-- `resolve_placeholders`; `none` when the fuel runs out. -/
def resolvePlaceholders (fuel : Nat) (content : Text) (values : Dict Text Value)
    (vars : List Variable) (sharedWs : Bool) : Option (Except String Text) :=
  if content = [] ∨ values = [] then some (.ok content)
  else do
    let first ← (texts values).mapValues? (fun _ value => expandValue w fuel (texts values) value value)
    match if sharedWs then vars.foldlM (readFileVariable out) first else .ok first with
    | .error e => some (.error e)
    | .ok files => do
        let resolved ← (texts values).foldlM (secondStep w fuel (fileKeys vars)) files
        match listPass w out resolved content with
        | .error e => some (.error e)
        | .ok listed =>
          match dictPass w out resolved listed with
          | .error e => some (.error e)
          | .ok result => some (.ok (lastPass w resolved result))

end

/-! ## Clear texts -/

section
variable {w : WordClass}

/-- A text in which no stretch between two placeholders, nor the last one, ends in
an unfinished placeholder. -/
inductive Clear (w : WordClass) : Text → Prop
  | text {run : Text} (hsealed : Sealed w run) (hnone : NoHole w run) : Clear w run
  | hole {run key rest : Text} (hsealed : Sealed w run) (hnone : NoHole w run)
      (hkey : IsKey w key) (hrest : Clear w rest) : Clear w (run ++ (placeholder key ++ rest))

lemma subPieces_append (f : Text → Text) (pieces others : List Piece) :
    subPieces f (pieces ++ others) = subPieces f pieces ++ subPieces f others :=
  flatMap_append

lemma subPieces_chr (f : Text → Text) (run : Text) : subPieces f (run.map .chr) = run := by
  induction run with
  | nil => rfl
  | cons c rest ih =>
    show c :: subPieces f (rest.map .chr) = c :: rest
    rw [ih]

lemma subPieces_hole (f : Text → Text) (key : Text) (pieces : List Piece) :
    subPieces f (.hole key :: pieces) = f key ++ subPieces f pieces := rfl

variable {f : Text → Text}

lemma subPieces_congr {g : Text → Text} {pieces : List Piece}
    (h : ∀ key, .hole key ∈ pieces → f key = g key) : subPieces f pieces = subPieces g pieces := by
  apply flatMap_congr
  intro piece hpiece
  cases piece with
  | chr => rfl
  | hole key => exact h key hpiece

lemma subPieces_placeholder (text : Text) : subPieces placeholder (scan w text) = text := by
  induction text using scan_induction (w := w) with
  | nil => rfl
  | hole key after hkey ih => rw [scan_hole hkey, subPieces_hole, ih]
  | chr c rest hat ih =>
    rw [scan_chr hat]
    show c :: subPieces placeholder (scan w rest) = c :: rest
    rw [ih]

lemma scan_run {run key : Text} (rest : Text) (hsealed : Sealed w run) (hnone : NoHole w run)
    (hkey : IsKey w key) :
    scan w (run ++ (placeholder key ++ rest)) = run.map .chr ++ .hole key :: scan w rest := by
  rw [hsealed, scan_of_noHole hnone, scan_hole hkey]

lemma Clear.scan_subPieces {text : Text} (h : Clear w text)
    (hf : ∀ key, .hole key ∈ scan w text → Sealed w (f key)) :
    scan w (subPieces f (scan w text)) = (scan w text).flatMap (fun piece =>
      match piece with
      | .chr c => [.chr c]
      | .hole key => scan w (f key)) ∧ Sealed w (subPieces f (scan w text)) := by
  have hchr : ∀ run : Text, (run.map Piece.chr).flatMap (fun piece =>
      match piece with
      | .chr c => [.chr c]
      | .hole key => scan w (f key)) = run.map .chr := by
    intro run
    induction run with
    | nil => rfl
    | cons c rest ih =>
      rw [map_cons, flatMap_cons, ih]
      rfl
  induction h with
  | text hsealed hnone =>
    rw [scan_of_noHole hnone, subPieces_chr, hchr, scan_of_noHole hnone]
    exact ⟨rfl, hsealed⟩
  | hole hsealed hnone hkey hrest ih =>
    rw [scan_run _ hsealed hnone hkey] at hf ⊢
    have hhead := hf _ (mem_append_right _ mem_cons_self)
    obtain ⟨hscan, htail⟩ := ih (fun key hmem =>
      hf key (mem_append_right _ (mem_cons_of_mem _ hmem)))
    rw [subPieces_append, subPieces_chr, subPieces_hole, flatMap_append, hchr,
      flatMap_cons, hsealed, hhead, hscan, scan_of_noHole hnone]
    exact ⟨rfl, hsealed.append (hhead.append htail)⟩

lemma Clear.mem_scan_subPieces {text : Text} (h : Clear w text) {f : Text → Text}
    (hf : ∀ key, .hole key ∈ scan w text → Sealed w (f key)) {other : Text} :
    .hole other ∈ scan w (subPieces f (scan w text))
      ↔ ∃ key, .hole key ∈ scan w text ∧ .hole other ∈ scan w (f key) := by
  rw [(h.scan_subPieces hf).1, mem_flatMap]
  constructor
  · rintro ⟨piece, hpiece, hmem⟩
    cases piece with
    | chr => exact absurd (mem_singleton.1 hmem) (by rintro ⟨⟩)
    | hole key => exact ⟨key, hpiece, hmem⟩
  rintro ⟨key, hkey, hmem⟩
  exact ⟨.hole key, hkey, hmem⟩

end

/-! ## The loop on a clear text -/

section
variable {w : WordClass} {front : Text}

lemma first_hole_unique {other key last : Text} {pieces more : List Piece}
    (h : front.map Piece.chr ++ .hole key :: pieces = other.map .chr ++ .hole last :: more) :
    front = other ∧ key = last := by
  induction front generalizing other with
  | nil =>
    cases other with
    | nil => exact ⟨rfl, Piece.hole.inj (cons.inj h).1⟩
    | cons => cases (cons.inj h).1
  | cons c front ih =>
    cases other with
    | nil => cases (cons.inj h).1
    | cons =>
      obtain ⟨hchr, htail⟩ := cons.inj h
      obtain ⟨rfl, rfl⟩ := ih htail
      exact ⟨congrArg (· :: front) (Piece.chr.inj hchr), rfl⟩

lemma search_sealed {key rest : Text} (hsealed : Sealed w front) (hnone : NoHole w front)
    (hkey : IsKey w key) :
    search w (front ++ (placeholder key ++ rest)) = some (front, key, rest) := by
  have hscan := scan_run rest hsealed hnone hkey
  cases hfound : search w (front ++ (placeholder key ++ rest)) with
  | none =>
    have := search_none_iff.1 hfound key
    rw [hscan] at this
    exact absurd (mem_append_right _ mem_cons_self) this
  | some found =>
    obtain ⟨before, other, after⟩ := found
    obtain ⟨-, htext⟩ := search_some hfound
    have hother := (scan_search _).2 before other after hfound
    rw [hscan] at hother
    obtain ⟨rfl, rfl⟩ := first_hole_unique hother
    have hafter := append_cancel_left (append_cancel_left htext)
    rw [hafter]

variable (w) in
def substitute (values : Dict Text Text) (r : Text → Text) (key : Text) : Text :=
  if (values.get? key).isSome then r key else placeholder key

variable {values : Dict Text Text} {r : Text → Text}

lemma substitute_known {key : Text} (h : (values.get? key).isSome) :
    substitute values r key = r key := if_pos h

lemma substitute_unknown {key : Text} (h : values.get? key = none) :
    substitute values r key = placeholder key := by
  rw [substitute, h]
  rfl

def NoKnown (w : WordClass) (values : Dict Text Text) (text : Text) : Prop :=
  ∀ key, .hole key ∈ scan w text → values.get? key = none

lemma subPieces_noKnown {text : Text} (h : NoKnown w values text) :
    subPieces (substitute values r) (scan w text) = text := by
  have hsame : subPieces (substitute values r) (scan w text) = subPieces placeholder (scan w text) :=
    subPieces_congr (fun key hkey => substitute_unknown (h key hkey))
  rw [hsame, subPieces_placeholder]

/-- The texts that the known placeholders of a text become: sealed, with unknown
placeholders only. -/
def Expanded (w : WordClass) (values : Dict Text Text) (r : Text → Text) (text : Text) : Prop :=
  ∀ key, .hole key ∈ scan w text → (values.get? key).isSome →
    Sealed w (r key) ∧ NoKnown w values (r key)

def Ordered (w : WordClass) (values : Dict Text Text) (stops : Text → Prop) (text : Text) : Prop :=
  ∀ front key behind, scan w text = front ++ .hole key :: behind → stops key →
    ∀ other, .hole other ∈ behind → values.get? other = none

lemma resolveLoop_clear {visited : List Text} {depth : Nat} {rest : Text} (hclear : Clear w rest)
    (hexpanded : Expanded w values r rest)
    (horder : Ordered w values (fun key => values.get? key = none ∨ ¬ NoHole w (r key)) rest)
    (hvisited : ∀ key ∈ visited, values.get? key ≠ none)
    (hnested : ∀ key value, .hole key ∈ scan w rest → values.get? key = some value →
      key ∉ visited ∧ ∃ fuel, enter (depth + 1) value
        (resolveLoop w values fuel (key :: visited) (depth + 1) value) = some (.ok (r key)))
    {done : Text} (hdone : Sealed w done) (hnone : NoHole w done) :
    ∃ fuel, resolveLoop w values fuel visited depth (done ++ rest)
      = some (.ok (done ++ subPieces (substitute values r) (scan w rest))) := by
  induction hclear generalizing done with
  | @text run hrun hrunnone =>
    have hends : Ends w values visited (done ++ run) (.ok (done ++ run)) :=
      .noHole (search_none_iff.2 (hnone.append hdone hrunnone))
    refine ⟨1, ?_⟩
    rw [hends.resolveLoop, scan_of_noHole hrunnone, subPieces_chr]
  | @hole run key rest hrun hrunnone hkey hrest ih =>
    have hscan := scan_run rest hrun hrunnone hkey
    have hmem : Piece.hole key ∈ scan w (run ++ (placeholder key ++ rest)) := by
      rw [hscan]
      exact mem_append_right _ mem_cons_self
    have hmore : ∀ other, .hole other ∈ scan w rest →
        Piece.hole other ∈ scan w (run ++ (placeholder key ++ rest)) := by
      intro other hother
      rw [hscan]
      exact mem_append_right _ (mem_cons_of_mem _ hother)
    have hfound : search w (done ++ (run ++ (placeholder key ++ rest))) = some (done ++ run, key, rest) := by
      rw [← append_assoc]
      exact search_sealed (hdone.append hrun) (hnone.append hdone hrunnone) hkey
    have hsub : subPieces (substitute values r) (scan w (run ++ (placeholder key ++ rest)))
        = run ++ (substitute values r key ++ subPieces (substitute values r) (scan w rest)) := by
      rw [hscan, subPieces_append, subPieces_chr, subPieces_hole]
    cases hvalue : values.get? key with
    | none =>
      -- the loop ends, and nothing known stands behind
      have hbehind : NoKnown w values rest := horder _ key _ hscan (.inl hvalue)
      have hunvisited : key ∉ visited := fun h => hvisited key h hvalue
      have hends := Ends.unknown hfound hunvisited hvalue
      refine ⟨1, ?_⟩
      rw [hends.resolveLoop, hsub, substitute_unknown hvalue, subPieces_noKnown hbehind]
    | some value =>
      have hknown : (values.get? key).isSome := by rw [hvalue]; rfl
      obtain ⟨hunvisited, inner, hinner⟩ := hnested key value hmem hvalue
      obtain ⟨hsealed, hunknown⟩ := hexpanded key hmem hknown
      have hturn : ∀ fuel, inner ≤ fuel → resolveLoop w values (fuel + 1) visited depth
          (done ++ (run ++ (placeholder key ++ rest)))
            = resolveLoop w values fuel visited depth (done ++ run ++ (r key ++ rest)) := by
        intro fuel hle
        rw [resolveLoop_known hfound hunvisited hvalue, enter_mono (resolveLoop_mono hle) hinner]
      rw [hsub, substitute_known hknown]
      by_cases hhole : NoHole w (r key)
      · obtain ⟨fuel, hfuel⟩ := ih (fun other hother => hexpanded other (hmore other hother))
          (fun front other behind hsplit => horder (run.map .chr ++ .hole key :: front) other behind
            (by rw [hscan, hsplit, append_assoc, cons_append]))
          (fun other v hother => hnested other v (hmore other hother))
          ((hdone.append hrun).append hsealed)
          ((hnone.append hdone hrunnone).append (hdone.append hrun) hhole)
        refine ⟨max fuel inner + 1, ?_⟩
        have hfuel := resolveLoop_mono (Nat.le_max_left fuel inner) hfuel
        rw [hturn _ (Nat.le_max_right fuel inner), ← append_assoc, hfuel]
        simp only [append_assoc]
      -- the first placeholder of the replacement is unknown
      have hbehind : NoKnown w values rest := horder _ key _ hscan (.inr hhole)
      cases hfirst : search w (r key) with
      | none => exact absurd (search_none_iff.1 hfirst) hhole
      | some found =>
        obtain ⟨before, other, after⟩ := found
        have hother := (scan_search _).2 before other after hfirst
        have hotherkey : values.get? other = none := by
          apply hunknown
          rw [hother]
          exact mem_append_right _ mem_cons_self
        have hjoined : search w (done ++ run ++ (r key ++ rest))
            = some (done ++ run ++ before, other, after ++ rest) := by
          have hall : scan w (done ++ run ++ (r key ++ rest))
              = (done ++ run ++ before).map .chr ++ .hole other :: (scan w after ++ scan w rest) := by
            rw [hdone.append hrun, hsealed, scan_of_noHole (hnone.append hdone hrunnone), hother]
            simp only [map_append, append_assoc, cons_append]
          cases hsearch : search w (done ++ run ++ (r key ++ rest)) with
          | none =>
            have := search_none_iff.1 hsearch other
            rw [hall] at this
            exact absurd (mem_append_right _ mem_cons_self) this
          | some again =>
            obtain ⟨b, k, a⟩ := again
            have hagain := (scan_search _).2 b k a hsearch
            rw [hall] at hagain
            obtain ⟨rfl, rfl⟩ := first_hole_unique hagain
            obtain ⟨-, htext⟩ := search_some hsearch
            obtain ⟨-, hrkey⟩ := search_some hfirst
            rw [hrkey] at htext
            simp only [append_assoc, append_cancel_left_eq] at htext
            rw [← htext]
        have hends : Ends w values visited (done ++ run ++ (r key ++ rest))
            (.ok (done ++ run ++ (r key ++ rest))) :=
          .unknown hjoined (fun h => hvisited other h hotherkey) hotherkey
        refine ⟨inner + 1 + 1, ?_⟩
        rw [hturn _ (Nat.le_succ inner), hends.resolveLoop, subPieces_noKnown hbehind]
        simp only [append_assoc]

end

/-! ## Values that refer to values -/

/-- **The complete expansion** of a text: known placeholders become the
expansion of their value, all else stays. -/
inductive Expands (w : WordClass) (values : Dict Text Text) : List Piece → Text → Prop
  | nil : Expands w values [] []
  | chr {c : Char} {pieces : List Piece} {out : Text} (h : Expands w values pieces out) :
      Expands w values (.chr c :: pieces) (c :: out)
  | unknown {key : Text} {pieces : List Piece} {out : Text} (hkey : values.get? key = none)
      (h : Expands w values pieces out) :
      Expands w values (.hole key :: pieces) (placeholder key ++ out)
  | known {key value : Text} {pieces : List Piece} {inner out : Text}
      (hkey : values.get? key = some value) (hinner : Expands w values (scan w value) inner)
      (h : Expands w values pieces out) : Expands w values (.hole key :: pieces) (inner ++ out)

/-- References from the keys in `K` that are acyclic and nested at most ten deep:
the values a value refers to have a smaller rank. -/
structure Ranked (w : WordClass) (values : Dict Text Text) (K : Text → Prop) (rank : Text → Nat) :
    Prop where
  bound : ∀ key value, K key → values.get? key = some value → rank key ≤ maxResolveDepth
  below : ∀ key value, K key → values.get? key = some value → ∀ other, .hole other ∈ scan w value →
    (values.get? other).isSome → rank other < rank key
  closed : ∀ key value, K key → values.get? key = some value → ∀ other,
    .hole other ∈ scan w value → K other

/-- A key whose placeholder stops the loop: it has no value, or one in its value
stops it. -/
inductive Blocks (w : WordClass) (values : Dict Text Text) : Text → Prop
  | unknown {key : Text} (h : values.get? key = none) : Blocks w values key
  | nested {key value other : Text} (h : values.get? key = some value)
      (hother : .hole other ∈ scan w value) (hblocks : Blocks w values other) : Blocks w values key

section
variable {w : WordClass} {values : Dict Text Text} {K : Text → Prop} {rank : Text → Nat}

variable (w values) in
def expandDepth : Nat → Text → Text
  | 0, text => text
  | n + 1, text =>
    subPieces (fun key => ((values.get? key).map (expandDepth n)).getD (placeholder key))
      (scan w text)

variable (w values) in
def expansion (key : Text) : Text :=
  ((values.get? key).map (expandDepth w values (maxResolveDepth + 1))).getD (placeholder key)

lemma expandDepth_stable (hranked : Ranked w values K rank) (n : Nat) {text : Text}
    (hK : ∀ other, .hole other ∈ scan w text → K other)
    (h : ∀ other, .hole other ∈ scan w text → (values.get? other).isSome → rank other < n) :
    expandDepth w values n text = expandDepth w values (n + 1) text := by
  induction n generalizing text with
  | zero =>
    have hplain : ∀ key, .hole key ∈ scan w text →
        ((values.get? key).map (expandDepth w values 0)).getD (placeholder key)
          = placeholder key := by
      intro key hkey
      cases hvalue : values.get? key with
      | none => rfl
      | some => exact absurd (h key hkey (by rw [hvalue]; rfl)) (Nat.not_lt_zero _)
    rw [expandDepth, expandDepth, subPieces_congr hplain, subPieces_placeholder]
  | succ n ih =>
    rw [expandDepth, expandDepth]
    apply subPieces_congr
    intro key hkey
    cases hvalue : values.get? key with
    | none => rfl
    | some value =>
      have hrank := h key hkey (by rw [hvalue]; rfl)
      rw [map_some, map_some, getD_some, getD_some]
      apply ih (hranked.closed key value (hK key hkey) hvalue)
      intro other hother hknown
      have := hranked.below key value (hK key hkey) hvalue other hother hknown
      omega

lemma expansion_eq (hranked : Ranked w values K rank) {key value : Text} (hkey : K key)
    (hvalue : values.get? key = some value) : expansion w values key
      = subPieces (substitute values (expansion w values)) (scan w value) := by
  have hstable := expandDepth_stable hranked (maxResolveDepth + 1)
    (hranked.closed key value hkey hvalue) (fun other hother hknown => by
      have hbelow := hranked.below key value hkey hvalue other hother hknown
      have hbound := hranked.bound key value hkey hvalue
      omega)
  rw [expansion, hvalue, map_some, getD_some, hstable, expandDepth]
  apply subPieces_congr
  intro other _
  rw [substitute]
  cases hother : values.get? other with
  | none => rfl
  | some =>
    rw [if_pos Option.isSome_some, expansion, hother]

variable {r : Text → Text} {visited : List Text} {resolved : Dict Text Text} {content : Text}

lemma sealed_substitute {text : Text} (h : Expanded w values r text) :
    ∀ key, .hole key ∈ scan w text → Sealed w (substitute values r key) := by
  intro key hkey
  cases hvalue : values.get? key with
  | none =>
    rw [substitute_unknown hvalue]
    exact Sealed.placeholder (isKey_of_mem_scan hkey)
  | some =>
    have hknown : (values.get? key).isSome := by rw [hvalue]; rfl
    rw [substitute_known hknown]
    exact (h key hkey hknown).1

lemma scan_placeholder {key : Text} (hkey : IsKey w key) : scan w (placeholder key) = [.hole key] := by
  have := scan_hole hkey []
  rwa [append_nil] at this

lemma hole_substitute {text other : Text} (hclear : Clear w text) (h : Expanded w values r text)
    (hother : .hole other ∈ scan w (subPieces (substitute values r) (scan w text))) :
    values.get? other = none ∧ ∃ key, .hole key ∈ scan w text
      ∧ (key = other ∨ (values.get? key).isSome ∧ .hole other ∈ scan w (r key)) := by
  obtain ⟨key, hkey, hmem⟩ := (hclear.mem_scan_subPieces (sealed_substitute h)).1 hother
  cases hvalue : values.get? key with
  | none =>
    rw [substitute_unknown hvalue, scan_placeholder (isKey_of_mem_scan hkey)] at hmem
    obtain rfl := Piece.hole.inj (mem_singleton.1 hmem)
    exact ⟨hvalue, other, hkey, .inl rfl⟩
  | some =>
    have hknown : (values.get? key).isSome := by rw [hvalue]; rfl
    rw [substitute_known hknown] at hmem
    exact ⟨(h key hkey hknown).2 other hmem, key, hkey, .inr ⟨hknown, hmem⟩⟩

/-- What the values of the keys in `K` have to be: clear texts whose references
have ranks, with no known placeholder behind one that stops the loop. -/
structure WellOrdered (w : WordClass) (values : Dict Text Text) (K : Text → Prop)
    (rank : Text → Nat) : Prop where
  ranked : Ranked w values K rank
  clear : ∀ key value, K key → values.get? key = some value → Clear w value
  ordered : ∀ key value, K key → values.get? key = some value →
    Ordered w values (Blocks w values) value

lemma WellOrdered.facts (h : WellOrdered w values K rank) {key value : Text} (hkey : K key)
    (hvalue : values.get? key = some value) :
    (Sealed w (expansion w values key) ∧ NoKnown w values (expansion w values key))
      ∧ ∀ other, .hole other ∈ scan w (expansion w values key) → Blocks w values key := by
  induction hrank : rank key using Nat.strong_induction_on generalizing key value with
  | _ n ih =>
    have hnested : ∀ other, .hole other ∈ scan w value → (values.get? other).isSome →
        (Sealed w (expansion w values other) ∧ NoKnown w values (expansion w values other))
        ∧ ∀ last, .hole last ∈ scan w (expansion w values other) →
            Blocks w values other := by
      intro other hother hknown
      obtain ⟨_, hv⟩ := Option.isSome_iff_exists.1 hknown
      exact ih _ (hrank ▸ h.ranked.below key value hkey hvalue other hother hknown)
        (h.ranked.closed key value hkey hvalue other hother) hv rfl
    have hexpanded : Expanded w values (expansion w values) value :=
      fun other hother hknown => (hnested other hother hknown).1
    rw [expansion_eq h.ranked hkey hvalue]
    refine ⟨⟨((h.clear key value hkey hvalue).scan_subPieces (sealed_substitute hexpanded)).2, ?_⟩, ?_⟩
    · exact fun other hother => (hole_substitute (h.clear key value hkey hvalue) hexpanded hother).1
    intro last hlast
    obtain ⟨hnone, other, hother, hcase⟩ :=
      hole_substitute (h.clear key value hkey hvalue) hexpanded hlast
    rcases hcase with rfl | ⟨hknown, hmem⟩
    · exact .nested hvalue hother (.unknown hnone)
    exact .nested hvalue hother ((hnested other hother hknown).2 last hmem)

lemma WellOrdered.expanded (h : WellOrdered w values K rank) {text : Text}
    (htext : ∀ key, .hole key ∈ scan w text → K key) : Expanded w values (expansion w values) text := by
  intro key hkey hknown
  obtain ⟨_, hvalue⟩ := Option.isSome_iff_exists.1 hknown
  exact (h.facts (htext key hkey) hvalue).1

lemma WellOrdered.blocks (h : WellOrdered w values K rank) {key : Text} (hkey : K key)
    (hstops : values.get? key = none ∨ ¬ NoHole w (expansion w values key)) :
    Blocks w values key := by
  cases hvalue : values.get? key with
  | none => exact .unknown hvalue
  | some =>
    rcases hstops with hnone | hhole
    · rw [hvalue] at hnone
      cases hnone
    by_contra hblocks
    exact hhole (fun other hother => hblocks ((h.facts hkey hvalue).2 other hother))

lemma expands_substitute {pieces : List Piece}
    (h : ∀ key value, .hole key ∈ pieces → values.get? key = some value →
      Expands w values (scan w value) (r key)) :
    Expands w values pieces (subPieces (substitute values r) pieces) := by
  induction pieces with
  | nil => exact .nil
  | cons piece pieces ih =>
    have hrest := ih (fun key value hkey => h key value (mem_cons_of_mem _ hkey))
    cases piece with
    | chr => exact .chr hrest
    | hole key =>
      rw [subPieces_hole]
      cases hvalue : values.get? key with
      | none =>
        rw [substitute_unknown hvalue]
        exact .unknown hvalue hrest
      | some value =>
        rw [substitute_known (by rw [hvalue]; rfl)]
        exact .known hvalue (h key value mem_cons_self hvalue) hrest

lemma expands_expansion (hranked : Ranked w values K rank) {key value : Text} (hkey : K key)
    (hvalue : values.get? key = some value) :
    Expands w values (scan w value) (expansion w values key) := by
  induction hrank : rank key using Nat.strong_induction_on generalizing key value with
  | _ n ih =>
    rw [expansion_eq hranked hkey hvalue]
    apply expands_substitute
    intro other _ hother hv
    exact ih _ (hrank ▸ hranked.below key value hkey hvalue other hother (by rw [hv]; rfl))
      (hranked.closed key value hkey hvalue other hother) hv rfl

/-! ## The two expansions of a value -/

lemma WellOrdered.loop_ordered (h : WellOrdered w values K rank) {text : Text}
    (htext : ∀ key, .hole key ∈ scan w text → K key)
    (horder : Ordered w values (Blocks w values) text) : Ordered w values
      (fun key => values.get? key = none ∨ ¬ NoHole w (expansion w values key)) text :=
  fun front key behind hsplit hstops => horder front key behind hsplit
    (h.blocks (htext key (hsplit ▸ mem_append_right _ mem_cons_self)) hstops)

lemma expansion_plain (hranked : Ranked w values K rank) {key value : Text} (hkey : K key)
    (hvalue : values.get? key = some value) (hplain : value = [] ∨ hasOpening value = false) :
    expansion w values key = value := by
  have hnone : NoHole w value := by
    apply search_none_iff.1
    rcases hplain with rfl | hopening
    · rfl
    exact search_of_noOpening hopening
  rw [expansion_eq hranked hkey hvalue, scan_of_noHole hnone, subPieces_chr]

lemma WellOrdered.first (h : WellOrdered w values K rank) {key value : Text} (hkey : K key)
    (hvalue : values.get? key = some value) {depth : Nat}
    (hdepth : depth + rank key ≤ maxResolveDepth)
    (hvisited : ∀ other ∈ visited, values.get? other ≠ none ∧ rank key ≤ rank other) :
    ∃ fuel, resolveNestedValue w values fuel visited depth value
      = some (.ok (expansion w values key)) := by
  induction hrank : rank key using Nat.strong_induction_on generalizing key value visited depth with
  | _ n ih =>
    unfold resolveNestedValue enter
    split_ifs with hplain hdeep
    · exact ⟨0, by rw [expansion_plain h.ranked hkey hvalue hplain]⟩
    · omega
    have hclosed := h.ranked.closed key value hkey hvalue
    have hloop := @resolveLoop_clear w values _ visited depth value
      (h.clear key value hkey hvalue) (h.expanded hclosed)
      (h.loop_ordered hclosed (h.ordered key value hkey hvalue)) (fun other hother => (hvisited other hother).1)
      (fun other v hother hv => by
        have hbelow := h.ranked.below key value hkey hvalue other hother (by rw [hv]; rfl)
        constructor
        · intro hmem
          have := (hvisited other hmem).2
          omega
        refine ih (rank other) (by omega) (hclosed other hother) hv (by omega) ?_ rfl
        intro last hlast
        rcases mem_cons.1 hlast with rfl | hlast
        · exact ⟨by rw [hv]; exact some_ne_none v, le_rfl⟩
        exact ⟨(hvisited last hlast).1, le_trans (by omega) (hvisited last hlast).2⟩)
      [] Sealed.nil (nofun)
    rw [expansion_eq h.ranked hkey hvalue]
    exact hloop

/-- The values after the first expansion: those of the keys in `K` are expanded,
and no key has come or gone. -/
structure Resolved (w : WordClass) (values : Dict Text Text) (K : Text → Prop)
    (resolved : Dict Text Text) : Prop where
  value : ∀ key, K key → resolved.get? key = (values.get? key).map (fun _ => expansion w values key)
  isSome : ∀ key, (resolved.get? key).isSome = (values.get? key).isSome

lemma Resolved.none_iff (h : Resolved w values K resolved) (key : Text) :
    resolved.get? key = none ↔ values.get? key = none := by
  rw [← Option.isNone_iff_eq_none, ← Option.isNone_iff_eq_none, ← not_isSome,
    ← not_isSome, h.isSome key]

lemma Resolved.substitute {resolved : Dict Text Text} (h : Resolved w values K resolved)
    (r : Text → Text) : substitute resolved r = substitute values r := by
  funext key
  rw [Placeholders.substitute, Placeholders.substitute, h.isSome key]

lemma ends_of_noKnown {text : Text} (h : NoKnown w values text)
    (hvisited : ∀ key ∈ visited, values.get? key ≠ none) :
    Ends w values visited text (.ok text) := by
  cases hfound : search w text with
  | none => exact .noHole hfound
  | some found =>
    obtain ⟨before, key, after⟩ := found
    have hnone : values.get? key = none := by
      apply h
      rw [(scan_search text).2 before key after hfound]
      exact mem_append_right _ mem_cons_self
    exact .unknown hfound (fun hmem => hvisited key hmem hnone) hnone

lemma WellOrdered.second (h : WellOrdered w values K rank)
    (hresolved : Resolved w values K resolved) {key value : Text} (hkey : K key)
    (hvalue : values.get? key = some value) : ∃ fuel, resolveNestedValue w resolved fuel [] 0 value
      = some (.ok (expansion w values key)) := by
  have hnone := hresolved.none_iff
  have hknown : ∀ other, (resolved.get? other).isSome → (values.get? other).isSome := by
    intro other hother
    rwa [hresolved.isSome other] at hother
  unfold resolveNestedValue enter
  split_ifs with hplain hdeep
  · exact ⟨0, by rw [expansion_plain h.ranked hkey hvalue hplain]⟩
  · cases hdeep
  have hclosed := h.ranked.closed key value hkey hvalue
  have hloop := @resolveLoop_clear w resolved (expansion w values) [] 0 value
    (h.clear key value hkey hvalue)
    (fun other hother hsome => by
      obtain ⟨hsealed, hunknown⟩ := h.expanded hclosed other hother (hknown other hsome)
      exact ⟨hsealed, fun last hlast => (hnone last).2 (hunknown last hlast)⟩)
    (fun front other behind hsplit hstops last hlast => (hnone last).2
      (h.loop_ordered hclosed (h.ordered key value hkey hvalue) front other behind hsplit
        (hstops.imp_left (hnone other).1) last hlast))
    (nofun)
    (fun other v hother hv => by
      refine ⟨not_mem_nil, 1, ?_⟩
      have hsome : (values.get? other).isSome := hknown other (by rw [hv]; rfl)
      have hv' : v = expansion w values other := by
        rw [hresolved.value other (hclosed other hother)] at hv
        obtain ⟨_, -, hu⟩ := Option.map_eq_some_iff.1 hv
        exact hu.symm
      have hends : Ends w resolved [other] v (.ok v) := by
        apply ends_of_noKnown
        · rw [hv']
          exact fun last hlast =>
            (hnone last).2 ((h.expanded hclosed other hother hsome).2 last hlast)
        intro last hlast
        rw [mem_singleton.1 hlast, hv]
        exact some_ne_none v
      rw [hends.resolveLoop, ← hv']
      unfold enter
      split_ifs with h1 h2
      · rfl
      · exact absurd h2 (by decide)
      rfl)
    [] Sealed.nil (nofun)
  rw [expansion_eq h.ranked hkey hvalue, ← hresolved.substitute]
  exact hloop

/-! ## The content -/

variable (values) in
def replacedSo (r : Text → Text) (keys : List Text) (key : Text) : Text :=
  if key ∈ keys ∧ (values.get? key).isSome then r key else placeholder key

lemma replaceAll_step (hclear : Clear w content) (hexpanded : Expanded w values r content)
    (keys : List Text) {key : Text} (hkey : IsKey w key) (hknown : (values.get? key).isSome) :
    replaceAll (placeholder key) (r key) (subPieces (replacedSo values r keys) (scan w content))
      = subPieces (replacedSo values r (keys ++ [key])) (scan w content) := by
  have hsealed : ∀ other, .hole other ∈ scan w content → Sealed w (replacedSo values r keys other) := by
    intro other hother
    unfold replacedSo
    split
    · next h => exact (hexpanded other hother h.2).1
    exact Sealed.placeholder (isKey_of_mem_scan hother)
  rw [replaceAll_placeholder hkey, (hclear.scan_subPieces hsealed).1, subPieces, subPieces,
    flatMap_assoc]
  apply flatMap_congr
  intro piece hpiece
  cases piece with
  | chr => rfl
  | hole other =>
    show subPieces _ (scan w (replacedSo values r keys other)) = replacedSo values r (keys ++ [key]) other
    by_cases hold : other ∈ keys ∧ (values.get? other).isSome
    · have hnew : other ∈ keys ++ [key] ∧ (values.get? other).isSome :=
        ⟨mem_append_left _ hold.1, hold.2⟩
      rw [replacedSo, replacedSo, if_pos hold, if_pos hnew]
      have hplain : ∀ last, .hole last ∈ scan w (r other) →
          (if last = key then r key else placeholder last) = placeholder last := by
        intro last hlast
        rw [if_neg]
        rintro rfl
        rw [(hexpanded other hpiece hold.2).2 last hlast] at hknown
        cases hknown
      rw [subPieces_congr hplain, subPieces_placeholder]
    rw [replacedSo, replacedSo, if_neg hold, scan_placeholder (isKey_of_mem_scan hpiece)]
    show (if other = key then r key else placeholder other) ++ [] = _
    rw [append_nil]
    by_cases heq : other = key
    · subst heq
      rw [if_pos rfl, if_pos ⟨mem_append_right _ mem_cons_self, hknown⟩]
    rw [if_neg heq, if_neg]
    rintro ⟨hmem, hsome⟩
    rcases mem_append.1 hmem with hmem | hmem
    · exact hold ⟨hmem, hsome⟩
    exact heq (mem_singleton.1 hmem)

lemma mem_holes {text key : Text} : key ∈ holes w text ↔ .hole key ∈ scan w text := by
  rw [holes, mem_filterMap]
  constructor
  · rintro ⟨piece, hpiece, heq⟩
    cases piece with
    | chr => cases heq
    | hole =>
      obtain rfl := some.inj heq
      exact hpiece
  exact fun h => ⟨.hole key, h, rfl⟩

lemma lastPass_eq (hclear : Clear w content) (hexpanded : Expanded w values r content)
    (hresolved : ∀ key, .hole key ∈ scan w content →
      resolved.get? key = (values.get? key).map (fun _ => r key)) :
    lastPass w resolved content = subPieces (substitute values r) (scan w content) := by
  have hfold : ∀ (more done : List Text), (∀ key ∈ more, .hole key ∈ scan w content) →
      more.foldl (fun result key =>
        match resolved.get? key with
        | none => result
        | some value => replaceAll (placeholder key) value result)
        (subPieces (replacedSo values r done) (scan w content))
      = subPieces (replacedSo values r (done ++ more)) (scan w content) := by
    intro more
    induction more with
    | nil =>
      intro done _
      rw [append_nil]
      rfl
    | cons key more ih =>
      intro done hkeys
      have hmore := fun other hother => hkeys other (mem_cons_of_mem key hother)
      have happend : done ++ key :: more = (done ++ [key]) ++ more := by
        rw [append_assoc]
        rfl
      rw [foldl_cons, hresolved key (hkeys key mem_cons_self), happend, ← ih (done ++ [key]) hmore]
      cases hvalue : values.get? key with
      | none =>
        have hsame : ∀ other, replacedSo values r (done ++ [key]) other = replacedSo values r done other := by
          intro other
          unfold replacedSo
          apply if_congr _ rfl rfl
          constructor
          · rintro ⟨hmem, hsome⟩
            rcases mem_append.1 hmem with hmem | hmem
            · exact ⟨hmem, hsome⟩
            rw [mem_singleton.1 hmem, hvalue] at hsome
            cases hsome
          exact fun h => ⟨mem_append_left _ h.1, h.2⟩
        rw [subPieces_congr (fun other _ => hsame other)]
        rfl
      | some =>
        have hknown : (values.get? key).isSome := by rw [hvalue]; rfl
        rw [← replaceAll_step hclear hexpanded done
          (isKey_of_mem_scan (hkeys key mem_cons_self)) hknown]
        rfl
  have hstart : subPieces (replacedSo values r []) (scan w content) = content := by
    have hplain : ∀ key, .hole key ∈ scan w content →
        replacedSo values r [] key = placeholder key := by
      intro key _
      rw [replacedSo, if_neg (fun h => absurd h.1 not_mem_nil)]
    rw [subPieces_congr hplain, subPieces_placeholder]
  have hall := hfold (holes w content) [] (fun key hkey => mem_holes.1 hkey)
  rw [hstart] at hall
  rw [lastPass, hall]
  apply subPieces_congr
  intro key hkey
  rw [replacedSo, substitute, nil_append]
  exact if_congr (and_iff_right (mem_holes.2 hkey)) rfl rfl

end

/-! ## The whole expansion -/

section
variable {w : WordClass}

lemma resolveNestedValue_mono {values : Dict Text Text} {n m : Nat} (hle : n ≤ m)
    {visited : List Text} {depth : Nat} {value : Text} {r : Except ResolveError Text}
    (h : resolveNestedValue w values n visited depth value = some r) :
    resolveNestedValue w values m visited depth value = some r :=
  enter_mono (resolveLoop_mono hle) h

lemma exists_fuel (values : Dict Text Text) (entries : List (Text × Text)) (f : Text → Text)
    (h : ∀ entry ∈ entries, ∃ fuel,
      resolveNestedValue w values fuel [] 0 entry.2 = some (.ok (f entry.1))) :
    ∃ enough, ∀ fuel, enough ≤ fuel → ∀ entry ∈ entries,
      resolveNestedValue w values fuel [] 0 entry.2 = some (.ok (f entry.1)) := by
  induction entries with
  | nil => exact ⟨0, nofun⟩
  | cons first rest ih =>
    obtain ⟨n, hn⟩ := h first mem_cons_self
    obtain ⟨m, hm⟩ := ih (fun entry hentry => h entry (mem_cons_of_mem _ hentry))
    refine ⟨max n m, fun fuel hle entry hentry => ?_⟩
    rcases mem_cons.1 hentry with rfl | hentry
    · exact resolveNestedValue_mono (le_trans (Nat.le_max_left n m) hle) hn
    exact hm fuel (le_trans (Nat.le_max_right n m) hle) entry hentry

lemma readFileVariable_skip (out : Outside) {vars : List Variable}
    (h : ∀ v ∈ vars, v.type ≠ "file".toList) (resolved : Dict Text Text) :
    vars.foldlM (readFileVariable out) resolved = .ok resolved := by
  induction vars with
  | nil => rfl
  | cons v rest ih =>
    have hskip : readFileVariable out resolved v = .ok resolved := if_pos (h v mem_cons_self)
    rw [foldlM_cons, hskip]
    exact ih (fun u hu => h u (mem_cons_of_mem v hu))

lemma secondStep_fold {resolved : Dict Text Text} {fuel : Nat} {entries : List (Text × Text)}
    (h : ∀ entry ∈ entries, ∃ text, resolved.get? entry.1 = some text
      ∧ resolveNestedValue w resolved fuel [] 0 entry.2 = some (.ok text)) :
    entries.foldlM (secondStep w fuel []) resolved = some resolved := by
  induction entries with
  | nil => rfl
  | cons entry rest ih =>
    obtain ⟨text, hget, hresolve⟩ := h entry mem_cons_self
    have hstep : secondStep w fuel [] resolved entry = some resolved := by
      unfold secondStep
      split
      · rfl
      rw [hresolve, map_some]
      simp only
      rw [set_self hget]
    rw [foldlM_cons, hstep]
    exact ih (fun e he => h e (mem_cons_of_mem _ he))

variable {content : Text}

lemma listPass_skip (out : Outside) (resolved : Dict Text Text)
    (h : findIter (listAt w) content = []) : listPass w out resolved content = .ok content := by
  rw [listPass, h]
  rfl

lemma dictPass_skip (out : Outside) (resolved : Dict Text Text)
    (h : findIter (dictAt w) content = []) : dictPass w out resolved content = .ok content := by
  rw [dictPass, h]
  rfl

end

/-! ### Two variables -/

def noFiles : Outside := { readFile := fun _ => .outside, loads := fun _ => none }

lemma get?_two {a b x y : Text} {P : Text → Text → Prop} (ha : P a x) (hb : P b y) (key value : Text)
    (h : Dict.get? [(a, x), (b, y)] key = some value) : P key value := by
  rw [get?_cons, get?_cons] at h
  split_ifs at h with h1 h2
  · obtain rfl := some.inj h
    obtain rfl := h1
    exact ha
  · obtain rfl := some.inj h
    obtain rfl := h2
    exact hb
  cases h

variable {w : WordClass}

lemma ordered_of_length {values : Dict Text Text} {stops : Text → Prop} {text : Text}
    (h : (scan w text).length ≤ 1) : Ordered w values stops text := by
  intro _ _ _ hsplit _ _ hother
  have hlength := congrArg List.length hsplit
  rw [length_append, length_cons] at hlength
  have := length_pos_of_mem hother
  omega

lemma clear_key {key : Text} (hkey : IsKey w key) : Clear w (placeholder key) := by
  have hnil : NoHole w [] := nofun
  have := Clear.hole Sealed.nil hnil hkey (Clear.text Sealed.nil hnil)
  rwa [nil_append, append_nil] at this

/-- The rank of `a` above that of all else. -/
def rankOfA (key : Text) : Nat := if key = ['a'] then 1 else 0

/-- The value of `a`, `{{u}} {{b}}`. -/
def unknownFirst : Text := placeholder ['u'] ++ ' ' :: placeholder ['b']

end DeterminFlow.Workflow.Placeholders
