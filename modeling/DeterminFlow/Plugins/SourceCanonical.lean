/-
  Plugins.SourceCanonical
  **CANONICAL PLUGIN SOURCES.**

  `canonicalize_plugin_source`: a source is stripped, split as a URL, taken
  apart and written again; what is no URL is an scp address or a path of this
  machine.  The store keeps the canonical text, and an update without an
  explicit source canonicalizes it once more.  The text comes back unless it
  is read differently: a host loses its brackets, a path that loses its
  slashes ends in a space, an scp path of slashes is gone, and the escapes of
  a file URL are undone twice.
-/
import DeterminFlow.Library.PercentText
import DeterminFlow.Library.UrlSplit
import DeterminFlow.Plugins.Store

namespace DeterminFlow.Plugins.SourceCanonical

open Library PyText UrlSplit List Option Except PercentText
open Plugins.Store (SourceKind)

/-! ## The function -/

/-- The machine: `str(Path(text).expanduser().resolve())`, which may fail and
is an absolute path otherwise. -/
structure Machine where
  resolve : List Char → Except String (List Char)
  resolve_absolute : ∀ text path, resolve text = .ok path → path.head? = some '/'

inductive SourceError where
  | text (message : String)
  | url (error : UrlError)
  deriving DecidableEq

/-- What the function returns. -/
structure Source where
  canonical : List Char
  kind : SourceKind
  clone : List Char
  deriving DecidableEq

variable (u : Unicode) (m : Machine)

/-- `Path.as_uri` of an absolute path. -/
def asUri (path : List Char) : List Char := ['f', 'i', 'l', 'e'] ++ ':' :: '/' :: '/' :: quote path

def localSource (text : List Char) : Except SourceError Source :=
  match m.resolve text with
  | .error message => .error (.text message)
  | .ok path => .ok { canonical := asUri path, kind := .local, clone := asUri path }

/-- The branch of `file:`; `url2pathname` unquotes once more. -/
def canonicalizeFile (split : SplitResult) : Except SourceError Source :=
  if !split.netloc.isEmpty || !split.query.isEmpty || !split.fragment.isEmpty then
    .error (.text "file Git URL must not contain authority, query, or fragment")
  else localSource m (unquote (unquote split.path))

/-- `path.rstrip("/")`. -/
def rstripSlash (path : List Char) : List Char := path.rdropWhile (· == '/')

/-- `path.rstrip("/") or "/"`. -/
def pathText (path : List Char) : List Char :=
  if (rstripSlash path).isEmpty then ['/'] else rstripSlash path

/-- `urlunsplit` of a scheme, an authority and a path. -/
def urlText (scheme netloc path : List Char) : List Char :=
  scheme ++ ':' :: '/' :: '/' :: (netloc ++ path)

def gitSchemes : List (List Char) :=
  [['g', 'i', 't'], ['h', 't', 't', 'p'], ['h', 't', 't', 'p', 's'], ['s', 's', 'h']]

def userOf (netloc : List Char) : List Char := (credentials netloc).1.getD []

/-- `(split.hostname or "").lower()`. -/
def hostOf (netloc : List Char) : List Char := lower u (hostname u netloc)

def gitSource (text : List Char) : Source := { canonical := text, kind := .git, clone := text }

def canonicalizeUrl (split : SplitResult) : Except SourceError Source :=
  if !gitSchemes.contains split.scheme then .error (.text "unsupported Git URL scheme")
  else if (hostOf u split.netloc).isEmpty then .error (.text "invalid Git URL")
  else if (credentials split.netloc).2.isSome then
    .error (.text "Git URL must not contain an inline password")
  else if !split.query.isEmpty || !split.fragment.isEmpty then
    .error (.text "Git URL must not contain query parameters or fragments")
  else if !(userOf split.netloc).isEmpty
      && (split.scheme == ['h', 't', 't', 'p'] || split.scheme == ['h', 't', 't', 'p', 's']) then
    .error (.text "HTTP Git URL must not contain user credentials")
  else
    match port split.netloc with
    | .error e => .error (.url e)
    | .ok p =>
      .ok (gitSource (urlText split.scheme
        (netlocText (userOf split.netloc) (hostOf u split.netloc) p) (pathText split.path)))

/-- `[^/@:\s]`. -/
def isUserChar (c : Char) : Bool := !(c == '/' || c == '@' || c == ':' || isSpace c)

/-- `[^/:\s]`. -/
def isHostChar (c : Char) : Bool := !(c == '/' || c == ':' || isSpace c)

/-- `_SCP_SOURCE_RE.fullmatch`: user, host and path. -/
def scpMatch? (raw : List Char) : Option (List Char × List Char × List Char) :=
  match raw.dropWhile isUserChar with
  | '@' :: rest =>
    match rest.dropWhile isHostChar with
    | ':' :: path =>
      if (raw.takeWhile isUserChar).isEmpty || (rest.takeWhile isHostChar).isEmpty
          || path.isEmpty || path.contains '\n' then none
      else some (raw.takeWhile isUserChar, rest.takeWhile isHostChar, path)
    | _ => none
  | _ => none

def scpText (user host path : List Char) : List Char := user ++ '@' :: (host ++ ':' :: path)

def canonicalizePluginSource (source : List Char) : Except SourceError Source :=
  let raw := strip source
  if raw.isEmpty then .error (.text "plugin source cannot be empty")
  else
    match urlsplit u raw with
    | .error e => .error (.url e)
    | .ok split =>
      if split.scheme == ['f', 'i', 'l', 'e'] then canonicalizeFile m split
      else if !split.scheme.isEmpty then canonicalizeUrl u split
      else
        match scpMatch? raw with
        | some (user, host, path) =>
          .ok (gitSource (scpText user (lower u host) (rstripSlash path)))
        | none => localSource m raw

/-! ## Which sources repeat -/

/-- A text `strip` leaves alone at its end. -/
def PlainEnd (path : List Char) : Prop := ∀ c ∈ path.getLast?, isSpace c = false

def Reopens (path : List Char) : Prop := m.resolve (unquote path) = .ok path

/-- An authority that survives the loss of the host's brackets: no further
bracket in the host, what brackets the user has still pass the check, and a
colon only before what reads as the port. -/
structure HostRepeats (user host : List Char) (p : Option Nat) : Prop where
  no_bracket : '[' ∉ host
  brackets : bracketsOk (netlocText user host p) = true
  colon : ':' ∉ host ∨ p = none ∧ ∃ name n, host = name ++ ':' :: Nat.toDigits 10 n ∧ ':' ∉ name
    ∧ name ≠ [] ∧ n ≤ 65535

def portOf (netloc : List Char) : Option Nat :=
  match port netloc with
  | .ok p => p
  | .error _ => none

def SplitRepeats (raw : List Char) (split : SplitResult) : Prop :=
  if split.scheme = ['f', 'i', 'l', 'e'] then
    ∀ path, m.resolve (unquote (unquote split.path)) = .ok path → Reopens m path
  else if split.scheme ≠ [] then
    HostRepeats (userOf split.netloc) (hostOf u split.netloc) (portOf split.netloc)
      ∧ PlainEnd (pathText split.path)
  else
    match scpMatch? raw with
    | some (_, _, path) => rstripSlash path ≠ [] ∧ PlainEnd (rstripSlash path)
    | none => ∀ path, m.resolve raw = .ok path → Reopens m path

def Repeats (source : List Char) : Prop :=
  ∀ split, urlsplit u (strip source) = .ok split → SplitRepeats u m (strip source) split

/-! ## Files -/

variable {c x : Char} {path netloc host user source : List Char} {r : Source} {p : Option Nat}

lemma isSpace_of_quoted (h : isQuoted c = true) : isSpace c = false := by
  have hascii : isAscii c = true := by
    simp only [isQuoted, Bool.or_eq_true, beq_iff_eq] at h
    rcases h with h | rfl
    · simpa only [isAscii, decide_eq_true_eq] using (safe_lt h).1
    rfl
  exact ascii_forall (P := fun c => isQuoted c = true → isSpace c = false) (by decide) hascii h

lemma quoted_plain (h : isQuoted c = true) : c ≠ '?' ∧ c ≠ '#' ∧ isUnsafe c = false := by
  refine ⟨?_, ?_, ?_⟩
  · rintro rfl
    cases h
  · rintro rfl
    cases h
  cases hescape : isUnsafe c with
  | false => rfl
  | true =>
    simp only [isUnsafe, Bool.or_eq_true, beq_iff_eq] at hescape
    rcases hescape with (rfl | rfl) | rfl <;> cases h

lemma file_scheme : IsLowerScheme ['f', 'i', 'l', 'e'] where
  head := ⟨'f', rfl, by decide⟩
  chars := all_eq_true.1 rfl
  small := by decide

lemma quote_head (h : path.head? = some '/') : (quote path).head? = some '/' := by
  cases path with
  | nil => exact absurd h.symm (some_ne_none _)
  | cons c =>
    have hc : c = '/' := some.inj h
    rw [hc, quote_slash]
    rfl

lemma strip_asUri (h : path.head? = some '/') : strip (asUri path) = asUri path := by
  apply strip_eq_self
  · intro c hc
    rw [← mem_some.1 hc]
    decide
  intro c hc
  have hne : quote path ≠ [] := by
    intro hnil
    have hhead := quote_head h
    rw [hnil] at hhead
    exact some_ne_none _ hhead.symm
  have hmem : (quote path).getLast? = some c := by
    rw [← getLast?_append_of_ne_nil ['f', 'i', 'l', 'e', ':', '/', '/'] hne]
    exact hc
  exact isSpace_of_quoted (quote_plain path c (mem_of_getLast? hmem))

lemma urlsplit_asUri (h : path.head? = some '/') :
    urlsplit u (asUri path) = .ok ⟨['f', 'i', 'l', 'e'], [], quote path, [], []⟩ := by
  have hsplit := @urlsplit_rebuilt u _ [] (quote path) file_scheme
    (nofun) (quote_head h)
    (fun c hc => quoted_plain (quote_plain path c hc))
  exact hsplit

lemma canonicalize_asUri (h : path.head? = some '/') :
    canonicalizePluginSource u m (asUri path) = localSource m (unquote path) := by
  unfold canonicalizePluginSource
  simp only [strip_asUri h, urlsplit_asUri u h]
  show localSource m (unquote (unquote (quote path))) = _
  rw [unquote_quote]

lemma asUri_injective {a b : List Char} (h : asUri a = asUri b) : a = b := by
  have hquote : quote a = quote b := by
    unfold asUri at h
    simpa using h
  exact quote_injective hquote

lemma localSource_ok {text : List Char} (h : localSource m text = .ok r) :
    ∃ path, m.resolve text = .ok path ∧ r = ⟨asUri path, .local, asUri path⟩ := by
  unfold localSource at h
  cases hresolve : m.resolve text with
  | error => rw [hresolve] at h; cases h
  | ok path =>
    rw [hresolve] at h
    exact ⟨path, rfl, (ok.inj h).symm⟩

lemma localSource_of_resolve {text : List Char} (h : m.resolve text = .ok path) :
    localSource m text = .ok ⟨asUri path, .local, asUri path⟩ := by
  unfold localSource
  rw [h]

lemma local_again {text : List Char} (h : localSource m text = .ok r) :
    ((∀ path, m.resolve text = .ok path → Reopens m path) →
        canonicalizePluginSource u m r.canonical = .ok r)
      ∧ (∀ again, canonicalizePluginSource u m r.canonical = .ok again →
          again.canonical = r.canonical → ∀ path, m.resolve text = .ok path → Reopens m path) := by
  obtain ⟨path, hresolve, rfl⟩ := localSource_ok m h
  have habsolute := m.resolve_absolute text path hresolve
  have hcanonical : canonicalizePluginSource u m (asUri path) = localSource m (unquote path) :=
    canonicalize_asUri u m habsolute
  constructor
  · intro hreopens
    show canonicalizePluginSource u m (asUri path) = _
    rw [hcanonical]
    exact localSource_of_resolve m (hreopens path hresolve)
  intro again hagain hsame path' hresolve'
  have hpath : path' = path := ok.inj (hresolve'.symm.trans hresolve)
  have hlocal : localSource m (unquote path) = .ok again := hcanonical ▸ hagain
  obtain ⟨_, hresolve₂, rfl⟩ := localSource_ok m hlocal
  rw [hpath]
  show m.resolve (unquote path) = .ok path
  rw [hresolve₂, asUri_injective hsame]

/-! ## The parts of an authority -/

lemma mem_hostinfo (h : c ∈ hostinfo netloc) : c ∈ netloc ∧ c ≠ '@' := by
  unfold hostinfo at h
  rcases rpartition_spec '@' netloc with ⟨hno, heq⟩ | ⟨_, _, htext, hno, heq⟩
  · rw [heq] at h
    exact ⟨h, fun hc => hno (hc ▸ h)⟩
  rw [heq] at h
  exact ⟨by rw [htext]; exact mem_append_right _ (mem_cons_of_mem _ h),
    fun hc => hno (hc ▸ h)⟩

lemma mem_userOf (h : c ∈ userOf netloc) : c ∈ netloc ∧ c ≠ ':' := by
  unfold userOf credentials at h
  rcases rpartition_spec '@' netloc with ⟨-, heq⟩ | ⟨_, _, htext, -, heq⟩
  · simp only [heq] at h
    cases h
  simp only [heq, if_true] at h
  have hpart := mem_partition h
  exact ⟨by rw [htext]; exact mem_append_left _ hpart.1, hpart.2⟩

lemma mem_hostPort (h : c ∈ (hostPort netloc).1) :
    c ∈ netloc ∧ c ≠ '@' ∧ ('[' ∈ (hostPort netloc).1 → c ≠ ']') := by
  unfold hostPort at h ⊢
  simp only at h ⊢
  rcases partition_spec '[' (hostinfo netloc) with ⟨hno, heq⟩ | ⟨_, _, htext, hno, heq⟩
  · simp only [heq, Bool.false_eq_true, if_false] at h ⊢
    have hinfo := mem_hostinfo (mem_partition h).1
    exact ⟨hinfo.1, hinfo.2, fun hopen => absurd (mem_partition hopen).1 hno⟩
  simp only [heq, if_true] at h ⊢
  have hpart := mem_partition h
  have hinfo : c ∈ hostinfo netloc := by
    rw [htext]
    exact mem_append_right _ (mem_cons_of_mem _ hpart.1)
  exact ⟨(mem_hostinfo hinfo).1, (mem_hostinfo hinfo).2, fun _ => hpart.2⟩

lemma mark_of_mem_hostname (hx : isMark x = true) (h : x ∈ hostname u netloc) :
    x ∈ (hostPort netloc).1 := by
  unfold hostname at h
  rcases mem_append.1 h with h | h
  · exact (mem_partition (mem_lower_mark u hx h)).1
  rcases partition_spec '%' (hostPort netloc).1 with ⟨-, heq⟩ | ⟨_, _, htext, -, heq⟩
  · simp only [heq] at h
    cases h
  simp only [heq, if_true] at h
  rw [htext]
  exact mem_append_right _ h

lemma mark_of_mem_hostOf (hx : isMark x = true) (h : x ∈ hostOf u netloc) :
    x ∈ (hostPort netloc).1 :=
  mark_of_mem_hostname u hx (mem_lower_mark u hx h)

lemma harmless_hostOf (h : ∀ c ∈ netloc, Harmless u c) : ∀ c ∈ hostOf u netloc, Harmless u c := by
  have hhost : ∀ c ∈ (hostPort netloc).1, Harmless u c := fun c hc => h c (mem_hostPort hc).1
  intro c hc
  refine harmless_of_mem_lower u (fun d hd => ?_) hc
  unfold hostname at hd
  rcases mem_append.1 hd with hd | hd
  · exact harmless_of_mem_lower u (fun e he => hhost e (mem_partition he).1) hd
  rcases partition_spec '%' (hostPort netloc).1 with ⟨-, heq⟩ | ⟨_, _, htext, -, heq⟩
  · simp only [heq] at hd
    cases hd
  simp only [heq, if_true] at hd
  exact hhost d (by rw [htext]; exact mem_append_right _ hd)

lemma hostOf_clean (h : ∀ c ∈ netloc, endsNetloc c = false ∧ isUnsafe c = false) :
    ∀ c ∈ hostOf u netloc, endsNetloc c = false ∧ isUnsafe c = false ∧ c ≠ '@' := by
  intro c hc
  refine ⟨?_, ?_, ?_⟩
  · cases hends : endsNetloc c with
    | false => rfl
    | true =>
      have hmark : isMark c = true := by
        simp only [endsNetloc, Bool.or_eq_true, beq_iff_eq] at hends
        rcases hends with (rfl | rfl) | rfl <;> rfl
      have hmem := (mem_hostPort (mark_of_mem_hostOf u hmark hc)).1
      exact absurd (h c hmem).1 (by rw [hends]; exact Bool.noConfusion)
  · cases hescape : isUnsafe c with
    | false => rfl
    | true =>
      have hmark : isMark c = true := by
        simp only [isUnsafe, Bool.or_eq_true, beq_iff_eq] at hescape
        rcases hescape with (rfl | rfl) | rfl <;> rfl
      have hmem := (mem_hostPort (mark_of_mem_hostOf u hmark hc)).1
      exact absurd (h c hmem).2 (by rw [hescape]; exact Bool.noConfusion)
  rintro rfl
  exact (mem_hostPort (mark_of_mem_hostOf u rfl hc)).2.1 rfl

lemma isAscii_of_isDigit (h : c.isDigit = true) : isAscii c = true := by
  have hbounds := bounds_of_isDigit h
  simp only [isAscii, decide_eq_true_eq]
  omega

lemma portText_clean (h : c ∈ portText p) :
    isAscii c = true ∧ endsNetloc c = false ∧ isUnsafe c = false := by
  cases p with
  | none => cases h
  | some =>
    rcases mem_cons.1 h with rfl | h
    · exact ⟨rfl, rfl, rfl⟩
    have hdigit := digits_isDigit c h
    exact ⟨isAscii_of_isDigit hdigit,
      ascii_forall (P := fun c => c.isDigit = true → endsNetloc c = false ∧ isUnsafe c = false)
        (by decide) (isAscii_of_isDigit hdigit) hdigit⟩

def rebuilt (netloc : List Char) (p : Option Nat) : List Char :=
  netlocText (userOf netloc) (hostOf u netloc) p

lemma rebuilt_clean {netloc : List Char} {p : Option Nat}
    (h : ∀ c ∈ netloc, endsNetloc c = false ∧ isUnsafe c = false) :
    ∀ c ∈ rebuilt u netloc p, endsNetloc c = false ∧ isUnsafe c = false := by
  intro c hc
  rcases mem_netlocText hc with hc | ⟨rfl, -⟩ | hc | hc
  · exact h c (mem_userOf hc).1
  · exact ⟨rfl, rfl⟩
  · exact ⟨(hostOf_clean u h c hc).1, (hostOf_clean u h c hc).2.1⟩
  exact (portText_clean hc).2

lemma rebuilt_harmless (h : ∀ c ∈ netloc, Harmless u c) :
    ∀ c ∈ rebuilt u netloc p, Harmless u c := by
  intro c hc
  rcases mem_netlocText hc with hc | ⟨rfl, -⟩ | hc | hc
  · exact h c (mem_userOf hc).1
  · exact nofun
  · exact harmless_hostOf u h c hc
  intro hascii
  rw [(portText_clean hc).1] at hascii
  exact Bool.noConfusion hascii

/-! ## The path of a URL -/

lemma rstripSlash_isPrefix (path : List Char) : rstripSlash path <+: path :=
  rdropWhile_prefix _ _

lemma mem_pathText (h : c ∈ pathText path) : c = '/' ∨ c ∈ path := by
  unfold pathText at h
  split at h
  · exact .inl (mem_singleton.1 h)
  exact .inr ((rstripSlash_isPrefix path).subset h)

lemma pathText_head (h : path = [] ∨ path.head? = some '/') :
    (pathText path).head? = some '/' := by
  unfold pathText
  split
  · rfl
  next hne =>
  obtain ⟨_, htail⟩ := rstripSlash_isPrefix path
  cases hstrip : rstripSlash path with
  | nil => exact absurd (by rw [hstrip]; rfl) hne
  | cons =>
    rw [hstrip] at htail
    rcases h with h | h
    · rw [h] at htail
      exact absurd htail (cons_ne_nil _ _)
    rw [← htail] at h
    exact h

lemma pathText_pathText (path : List Char) : pathText (pathText path) = pathText path := by
  have hroot : pathText ['/'] = ['/'] := rfl
  have htwice : rstripSlash (rstripSlash path) = rstripSlash path := rdropWhile_idempotent _ _
  unfold pathText
  split
  · exact hroot
  · next hne => rw [htwice, if_neg hne]

lemma pathText_length (h : path ≠ []) : (pathText path).length ≤ path.length := by
  unfold pathText
  split
  · exact length_pos_of_ne_nil h
  exact (rstripSlash_isPrefix path).length_le

lemma rstrip_spec (text : List Char) : ∃ front spaces, text = front ++ spaces
    ∧ (∀ c ∈ spaces, isSpace c = true) ∧ PlainEnd front := by
  refine ⟨text.rdropWhile isSpace, text.rtakeWhile isSpace,
    rdropWhile_append_rtakeWhile.symm, fun c hc => mem_rtakeWhile_imp hc,
    fun c hc => ?_⟩
  have hne : text.rdropWhile isSpace ≠ [] := by
    intro hnil
    rw [hnil] at hc
    exact some_ne_none _ hc.symm
  have hlast := rdropWhile_last_not isSpace text hne
  rw [getLast?_eq_some_getLast hne] at hc
  rw [← some.inj hc]
  simpa using hlast

/-! ## URLs -/

/-- What the URL branch checks, with the port it reads. -/
structure Accepts (split : SplitResult) (p : Option Nat) : Prop where
  scheme : gitSchemes.contains split.scheme = true
  host : hostOf u split.netloc ≠ []
  password : (credentials split.netloc).2 = none
  query : split.query = [] ∧ split.fragment = []
  user : userOf split.netloc = []
    ∨ (split.scheme ≠ ['h', 't', 't', 'p'] ∧ split.scheme ≠ ['h', 't', 't', 'p', 's'])
  port : port split.netloc = .ok p

lemma canonicalizeUrl_iff {split : SplitResult} : canonicalizeUrl u split = .ok r
      ↔ ∃ p, Accepts u split p
          ∧ r = gitSource (urlText split.scheme (rebuilt u split.netloc p) (pathText split.path)) := by
  constructor
  · intro h
    unfold canonicalizeUrl at h
    split at h
    · cases h
    next hscheme =>
      split at h
      · cases h
      next hhost =>
        split at h
        · cases h
        next hpassword =>
          split at h
          · cases h
          next hquery =>
            split at h
            · cases h
            next huser =>
              cases hport : port split.netloc with
              | error => rw [hport] at h; cases h
              | ok p =>
                rw [hport] at h
                refine ⟨p, ⟨?_, ?_, ?_, ?_, ?_, hport⟩, (ok.inj h).symm⟩
                · simpa using hscheme
                · exact fun hnil => hhost (by rw [hnil]; rfl)
                · simpa using hpassword
                · simpa using hquery
                simp only [Bool.and_eq_true, Bool.not_eq_true', Bool.or_eq_true, beq_iff_eq,
                  not_and, isEmpty_eq_false_iff, not_or] at huser
                by_cases hnil : userOf split.netloc = []
                · exact .inl hnil
                exact .inr (huser hnil)
  rintro ⟨p, ⟨hscheme, hhost, hpassword, hquery, huser, hport⟩, rfl⟩
  have hno : (!(userOf split.netloc).isEmpty
      && (split.scheme == ['h', 't', 't', 'p'] || split.scheme == ['h', 't', 't', 'p', 's'])) = false := by
    rcases huser with hnil | hne
    · rw [hnil]
      rfl
    rw [beq_eq_false_iff_ne.2 hne.1, beq_eq_false_iff_ne.2 hne.2]
    exact Bool.and_false _
  unfold canonicalizeUrl
  rw [hscheme, hpassword, hquery.1, hquery.2, hno, hport]
  simp only [Bool.not_true, Bool.false_eq_true, if_false, List.isEmpty_iff, hhost]
  rfl

lemma gitSchemes_lower : ∀ scheme ∈ gitSchemes, IsLowerScheme scheme
    ∧ scheme ≠ ['f', 'i', 'l', 'e'] ∧ scheme ≠ [] ∧ (∀ c ∈ scheme.head?, isSpace c = false) := by
  intro scheme h
  have hhead : ∀ (first : Char) (rest : List Char), isSpace first = false →
      ∀ c ∈ (first :: rest).head?, isSpace c = false := by
    intro first rest hfirst c hc
    obtain rfl := some.inj hc
    exact hfirst
  simp only [gitSchemes, mem_cons, not_mem_nil, or_false] at h
  rcases h with rfl | rfl | rfl | rfl
  · exact ⟨⟨⟨'g', rfl, by decide⟩, all_eq_true.1 rfl, by decide⟩, by decide, by decide, hhead _ _ (by decide)⟩
  · exact ⟨⟨⟨'h', rfl, by decide⟩, all_eq_true.1 rfl, by decide⟩, by decide, by decide, hhead _ _ (by decide)⟩
  · exact ⟨⟨⟨'h', rfl, by decide⟩, all_eq_true.1 rfl, by decide⟩, by decide, by decide, hhead _ _ (by decide)⟩
  exact ⟨⟨⟨'s', rfl, by decide⟩, all_eq_true.1 rfl, by decide⟩, by decide, by decide, hhead _ _ (by decide)⟩

lemma strip_urlText {scheme front spaces : List Char} (hscheme : scheme ∈ gitSchemes)
    (hspaces : ∀ c ∈ spaces, isSpace c = true) (hfront : front ≠ []) (hplain : PlainEnd front) :
    strip (urlText scheme netloc (front ++ spaces)) = urlText scheme netloc front := by
  obtain ⟨-, -, hne, hhead⟩ := gitSchemes_lower scheme hscheme
  have hassoc : urlText scheme netloc (front ++ spaces) = urlText scheme netloc front ++ spaces := by
    simp [urlText]
  rw [hassoc]
  refine strip_append (fun c hc => ?_) (fun c hc => ?_) ?_ hspaces
  · cases scheme with
    | nil => exact absurd rfl hne
    | cons => exact hhead c hc
  · have hlast : (urlText scheme netloc front).getLast? = front.getLast? := by
      have hsplit : urlText scheme netloc front = (scheme ++ ':' :: '/' :: '/' :: netloc) ++ front := by
        simp [urlText]
      rw [hsplit, getLast?_append_of_ne_nil _ hfront]
    exact hplain c (hlast ▸ hc)
  simp [urlText]

lemma canonicalize_urlText {scheme netloc front spaces : List Char} (hscheme : scheme ∈ gitSchemes)
    (hnetloc : ∀ c ∈ netloc, endsNetloc c = false ∧ isUnsafe c = false)
    (hharmless : ∀ c ∈ netloc, Harmless u c) (hhead : front.head? = some '/')
    (hfront : ∀ c ∈ front, c ≠ '?' ∧ c ≠ '#' ∧ isUnsafe c = false)
    (hspaces : ∀ c ∈ spaces, isSpace c = true) (hplain : PlainEnd front) :
    canonicalizePluginSource u m (urlText scheme netloc (front ++ spaces))
      = if bracketsOk netloc then canonicalizeUrl u ⟨scheme, netloc, front, [], []⟩
        else .error (.url .brackets) := by
  obtain ⟨hlower, hfile, hne, -⟩ := gitSchemes_lower scheme hscheme
  have hfrontNe : front ≠ [] := by
    rintro rfl
    exact some_ne_none _ hhead.symm
  have hslash : '/' ∉ netloc := fun hmem => absurd (hnetloc _ hmem).1 (by decide)
  have hsplit := @urlsplit_rebuilt u scheme netloc front hlower hnetloc hhead hfront
  rw [(checkNetloc_iff u hslash).2 hharmless] at hsplit
  have hnonempty : (urlText scheme netloc front).isEmpty = false := by
    rw [isEmpty_eq_false_iff]
    simp [urlText]
  have hschemeFile : (scheme == ['f', 'i', 'l', 'e']) = false := beq_eq_false_iff_ne.2 hfile
  have hschemeNe : scheme.isEmpty = false := isEmpty_eq_false_iff.2 hne
  unfold canonicalizePluginSource
  simp only [strip_urlText hscheme hspaces hfrontNe hplain, hnonempty]
  show (match urlsplit u (urlText scheme netloc front) with
    | .error e => _
    | .ok split => _) = _
  rw [show urlsplit u (urlText scheme netloc front) = _ from hsplit]
  cases hbrackets : bracketsOk netloc with
  | true => simp [hschemeFile, hschemeNe]
  | false => rfl

section
variable {split : SplitResult} {p : Option Nat} {netloc a b : List Char} {q : Option Nat}

lemma hostOf_lowered : ∀ c ∈ hostOf u netloc, Lowered u c := fun _ hc =>
  lowered_of_mem u hc

lemma port_bound (h : port netloc = .ok p) : ∀ n ∈ p, n ≤ 65535 := by
  intro n hn
  rw [mem_def.1 hn] at h
  exact port_le h

lemma accepts_netlocText {scheme path user host : List Char} (haccept : gitSchemes.contains scheme = true)
    (hhttp : user = [] ∨ (scheme ≠ ['h', 't', 't', 'p'] ∧ scheme ≠ ['h', 't', 't', 'p', 's']))
    (huser : ':' ∉ user) (hat : '@' ∉ host) (hopen : '[' ∉ host) (hcolon : ':' ∉ host) (hne : host ≠ [])
    (hlower : ∀ c ∈ host, Lowered u c) (hp : ∀ n ∈ p, n ≤ 65535) :
    Accepts u ⟨scheme, netlocText user host p, path, [], []⟩ p
      ∧ rebuilt u (netlocText user host p) p = netlocText user host p := by
  have hcredentials := @credentials_netlocText user host p hat huser
  have hhost : hostOf u (netlocText user host p) = host := by
    unfold hostOf
    rw [hostname_netlocText u hat hopen hcolon hlower, lower_eq_self u hlower]
  have huserOf : userOf (netlocText user host p) = user := hcredentials.1
  refine ⟨⟨haccept, ?_, hcredentials.2, ⟨rfl, rfl⟩, ?_, port_netlocText hat hopen hcolon hp⟩, ?_⟩
  · rw [hhost]
    exact hne
  · rw [huserOf]
    exact hhttp
  unfold rebuilt
  rw [huserOf, hhost]

lemma url_again (hs : Splits u split) (ha : Accepts u split p)
    (hhost : HostRepeats (userOf split.netloc) (hostOf u split.netloc) p)
    (hplain : PlainEnd (pathText split.path)) : canonicalizePluginSource u m
        (urlText split.scheme (rebuilt u split.netloc p) (pathText split.path))
      = .ok (gitSource (urlText split.scheme (rebuilt u split.netloc p) (pathText split.path))) := by
  have hscheme : split.scheme ∈ gitSchemes := by simpa using ha.scheme
  have hnetlocNe : split.netloc ≠ [] := by
    intro hnil
    refine ha.host ?_
    rw [hnil]
    rfl
  have hread := @canonicalize_urlText u m split.scheme (rebuilt u split.netloc p)
    (pathText split.path) [] hscheme (rebuilt_clean u hs.netloc) (rebuilt_harmless u hs.harmless)
    (pathText_head (hs.slash hnetlocNe))
    (fun c hc => (mem_pathText hc).elim (fun heq => by rw [heq]; decide) (hs.path c))
    (nofun) hplain
  rw [append_nil] at hread
  have hbrackets : bracketsOk (rebuilt u split.netloc p) = true := hhost.brackets
  rw [hread, hbrackets, if_pos rfl]
  have huser : ':' ∉ userOf split.netloc := fun hmem => (mem_userOf hmem).2 rfl
  have hat : '@' ∉ hostOf u split.netloc := fun hmem => (hostOf_clean u hs.netloc _ hmem).2.2 rfl
  have hagain : ∃ q, Accepts u ⟨split.scheme, rebuilt u split.netloc p, pathText split.path, [], []⟩ q
      ∧ rebuilt u (rebuilt u split.netloc p) q = rebuilt u split.netloc p := by
    rcases hhost.colon with hcolon | ⟨hp, name, n, heq, hname, hne, hn⟩
    · exact ⟨p, accepts_netlocText u ha.scheme ha.user huser hat hhost.no_bracket hcolon ha.host
        (hostOf_lowered u) (port_bound ha.port)⟩
    -- the colon of the host is read as the one before the port
    have hmem : ∀ c ∈ name, c ∈ hostOf u split.netloc := fun c hc => by
      rw [heq]
      exact mem_append_left _ hc
    have htext : rebuilt u split.netloc p = netlocText (userOf split.netloc) name (some n) := by
      unfold rebuilt netlocText
      rw [hp, heq]
      simp [portText]
    rw [htext]
    exact ⟨some n, accepts_netlocText u ha.scheme ha.user huser (fun h => hat (hmem _ h))
      (fun h => hhost.no_bracket (hmem _ h)) hname hne (fun c hc => hostOf_lowered u c (hmem c hc))
      (fun _ hk => by rw [← mem_some.1 hk]; exact hn)⟩
  obtain ⟨q, haccepts, hrebuilt⟩ := hagain
  refine (canonicalizeUrl_iff u).2 ⟨q, haccepts, ?_⟩
  show _ = gitSource (urlText split.scheme (rebuilt u (rebuilt u split.netloc p) q)
    (pathText (pathText split.path)))
  rw [hrebuilt, pathText_pathText]

lemma append_slash {x y : List Char} (ha : '/' ∉ a) (hb : '/' ∉ b) (hx : x.head? = some '/')
    (hy : y.head? = some '/') (h : a ++ x = b ++ y) : a = b ∧ x = y := by
  rcases append_eq_append_iff.1 h with ⟨middle, hmiddle, htail⟩ | ⟨middle, hmiddle, htail⟩
  · cases middle with
    | nil => exact ⟨by rw [hmiddle, append_nil], htail⟩
    | cons =>
      rw [htail] at hx
      refine absurd ?_ hb
      rw [hmiddle, ← some.inj hx]
      exact mem_append_right _ mem_cons_self
  cases middle with
  | nil => exact ⟨by rw [hmiddle, append_nil], htail.symm⟩
  | cons =>
    rw [htail] at hy
    refine absurd ?_ ha
    rw [hmiddle, ← some.inj hy]
    exact mem_append_right _ mem_cons_self

lemma netlocText_cancel {user : List Char} (h : netlocText user a p = netlocText user b q) :
    a ++ portText p = b ++ portText q := by
  by_cases hne : user = []
  · rw [hne] at h
    exact h
  rw [netlocText_user hne, netlocText_user hne] at h
  exact (cons.inj (append_cancel_left h)).2

lemma portText_lowered : ∀ c ∈ portText p, Lowered u c := by
  intro c hc _ _
  have hsame : c.toLower = c := by
    cases p with
    | none => cases hc
    | some =>
      rcases mem_cons.1 hc with rfl | hc
      · rfl
      have hdigit := digits_isDigit c hc
      exact ascii_forall (P := fun c => c.isDigit = true → c.toLower = c) (by decide)
        (isAscii_of_isDigit hdigit) hdigit
  unfold lowerChar
  rw [if_pos (portText_clean hc).1, hsame]

lemma hostOf_opened {after : List Char}
    (hinfo : hostinfo netloc = '[' :: after) (hclose : ']' ∉ after)
    (hlower : ∀ c ∈ after, Lowered u c) : hostOf u netloc = after ∧ port netloc = .ok none := by
  have hhost : hostPort netloc = (after, []) := by
    unfold hostPort
    have hopened : partition '[' ('[' :: after) = ([], true, after) :=
      @partition_append '[' [] after not_mem_nil
    simp only [hinfo, hopened, partition_of_not_mem hclose]
    rfl
  constructor
  · unfold hostOf hostname
    simp only [hhost]
    rw [zoned_eq_self u hlower, lower_eq_self u hlower]
  unfold port
  simp only [hhost]
  rfl

lemma no_bracket_of_rebuilt (hnetloc : ∀ c ∈ netloc, endsNetloc c = false ∧ isUnsafe c = false)
    (hbrackets : bracketsOk (rebuilt u netloc p) = true) (hport : port (rebuilt u netloc p) = .ok q)
    (hsame : hostOf u (rebuilt u netloc p) ++ portText q = hostOf u netloc ++ portText p) :
    '[' ∉ hostOf u netloc := by
  intro hopen
  have hat : '@' ∉ hostOf u netloc := fun hmem => (hostOf_clean u hnetloc _ hmem).2.2 rfl
  have hinfo : hostinfo (rebuilt u netloc p) = hostOf u netloc ++ portText p :=
    hostinfo_netlocText hat
  have hclose : ']' ∉ hostOf u netloc ++ portText p := by
    rw [mem_append]
    rintro (hmem | hmem)
    · exact (mem_hostPort (mark_of_mem_hostOf u rfl hmem)).2.2 (mark_of_mem_hostOf u rfl hopen) rfl
    exact not_mem_portText (by decide) (by decide) p hmem
  have hopenN : '[' ∈ rebuilt u netloc p := by
    have hmem : '[' ∈ hostinfo (rebuilt u netloc p) := by
      rw [hinfo]
      exact mem_append_left _ hopen
    exact (mem_hostinfo hmem).1
  have hcheck : checkBracketedNetloc (rebuilt u netloc p) = true := by
    unfold bracketsOk at hbrackets
    split at hbrackets
    · exact hbrackets
    rw [List.contains_iff_mem.2 hopenN] at hbrackets
    cases hbrackets
  obtain ⟨before, after, htext, hno⟩ : ∃ before after,
      hostOf u netloc ++ portText p = before ++ '[' :: after ∧ '[' ∉ before :=
    eq_append_cons_of_mem (mem_append_left _ hopen)
  have hbefore : before = [] := by
    unfold checkBracketedNetloc at hcheck
    simp only [hinfo, htext, partition_append hno, if_true, Bool.and_eq_true, List.isEmpty_iff] at hcheck
    exact hcheck.1.1
  have hshape : hostOf u netloc ++ portText p = '[' :: after := by rw [htext, hbefore]; rfl
  have hlower : ∀ c ∈ after, Lowered u c := by
    intro c hc
    have hmem : c ∈ hostOf u netloc ++ portText p := by
      rw [hshape]
      exact mem_cons_of_mem _ hc
    rcases mem_append.1 hmem with hmem | hmem
    · exact hostOf_lowered u c hmem
    exact portText_lowered u c hmem
  have hopened := hostOf_opened u (hinfo.trans hshape)
    (fun hmem => hclose (by rw [hshape]; exact mem_cons_of_mem _ hmem)) hlower
  have hq : q = none := ok.inj (hport.symm.trans hopened.2)
  rw [hopened.1, hq, hshape] at hsame
  have hlength := congrArg List.length hsame
  simp [portText] at hlength

lemma colon_of_rebuilt {netloc : List Char} {q : Option Nat}
    (hnetloc : ∀ c ∈ netloc, endsNetloc c = false ∧ isUnsafe c = false)
    (hopen : '[' ∉ hostOf u netloc) (hne : hostOf u (rebuilt u netloc p) ≠ [])
    (hport : port (rebuilt u netloc p) = .ok q)
    (hsame : hostOf u (rebuilt u netloc p) ++ portText q = hostOf u netloc ++ portText p) :
    ':' ∉ hostOf u netloc ∨ p = none ∧ ∃ name n, hostOf u netloc = name ++ ':' :: Nat.toDigits 10 n
      ∧ ':' ∉ name ∧ name ≠ [] ∧ n ≤ 65535 := by
  by_cases hcolon : ':' ∈ hostOf u netloc
  case neg => exact .inl hcolon
  case pos =>
    have hat : '@' ∉ hostOf u netloc := fun hmem => (hostOf_clean u hnetloc _ hmem).2.2 rfl
    obtain ⟨name, rest, htext, hname⟩ := eq_append_cons_of_mem hcolon
    have hhost : (hostPort (rebuilt u netloc p)).1 = name := by
      have hsplit : hostOf u netloc ++ portText p = name ++ ':' :: (rest ++ portText p) := by
        rw [htext]
        simp
      have hparts := @hostPort_netlocText (userOf netloc) (hostOf u netloc) p hat hopen
      rw [hsplit, partition_append hname] at hparts
      exact congrArg Prod.fst hparts
    have hlower : ∀ c ∈ name, Lowered u c := fun c hc => hostOf_lowered u c (by
      rw [htext]
      exact mem_append_left _ hc)
    have hagain : hostOf u (rebuilt u netloc p) = name := by
      unfold hostOf hostname
      simp only [hhost]
      rw [zoned_eq_self u hlower, lower_eq_self u hlower]
    rw [hagain] at hne
    rw [hagain, htext, append_assoc] at hsame
    have htail := append_cancel_left hsame
    cases q with
    | none => exact absurd htail.symm (cons_ne_nil _ _)
    | some n =>
      have hdigits : Nat.toDigits 10 n = rest ++ portText p := (cons.inj htail).2
      have hp : p = none := by
        cases p with
        | none => rfl
        | some =>
          have hmem : ':' ∈ Nat.toDigits 10 n := by
            rw [hdigits]
            exact mem_append_right _ mem_cons_self
          exact absurd (digits_isDigit _ hmem) (by decide)
      refine .inr ⟨hp, name, n, ?_, hname, hne, port_le hport⟩
      rw [htext, hdigits, hp]
      simp [portText]

lemma url_again_only (hs : Splits u split) (ha : Accepts u split p) {again : Source}
    (hagain : canonicalizePluginSource u m
        (urlText split.scheme (rebuilt u split.netloc p) (pathText split.path)) = .ok again)
    (hsame : again.canonical = urlText split.scheme (rebuilt u split.netloc p) (pathText split.path)) :
    HostRepeats (userOf split.netloc) (hostOf u split.netloc) p ∧ PlainEnd (pathText split.path) := by
  have hscheme : split.scheme ∈ gitSchemes := by simpa using ha.scheme
  have hnetlocNe : split.netloc ≠ [] := by
    intro hnil
    refine ha.host ?_
    rw [hnil]
    rfl
  have hhead := pathText_head (hs.slash hnetlocNe)
  obtain ⟨front, spaces, hpath, hspaces, hplain⟩ := rstrip_spec (pathText split.path)
  have hfrontHead : front.head? = some '/' := by
    rw [hpath] at hhead
    cases front with
    | nil => exact absurd (hspaces '/' (mem_of_mem_head? hhead)) (by decide)
    | cons => exact hhead
  have hfrontNe : front ≠ [] := by
    rintro rfl
    exact some_ne_none _ hfrontHead.symm
  have hclean := @rebuilt_clean u split.netloc p hs.netloc
  have hfrontClean : ∀ c ∈ front, c ≠ '?' ∧ c ≠ '#' ∧ isUnsafe c = false := by
    intro c hc
    have hmem : c ∈ pathText split.path := by
      rw [hpath]
      exact mem_append_left _ hc
    exact (mem_pathText hmem).elim (fun heq => by rw [heq]; decide) (hs.path c)
  have hread := canonicalize_urlText u m hscheme hclean (rebuilt_harmless u hs.harmless) hfrontHead
    hfrontClean hspaces hplain
  rw [hpath] at hagain hsame
  rw [hread] at hagain
  cases hbrackets : bracketsOk (rebuilt u split.netloc p) with
  | false =>
    rw [hbrackets] at hagain
    cases hagain
  | true =>
    rw [hbrackets, if_pos rfl] at hagain
    obtain ⟨q, haccepts, rfl⟩ := (canonicalizeUrl_iff u).1 hagain
    have htext : rebuilt u (rebuilt u split.netloc p) q ++ pathText front
        = rebuilt u split.netloc p ++ (front ++ spaces) := by
      have hurl : urlText split.scheme (rebuilt u (rebuilt u split.netloc p) q) (pathText front)
          = urlText split.scheme (rebuilt u split.netloc p) (front ++ spaces) := hsame
      unfold urlText at hurl
      simpa using hurl
    have hslash : ∀ {netloc : List Char}, (∀ c ∈ netloc, endsNetloc c = false ∧ isUnsafe c = false) →
        '/' ∉ netloc := fun h hmem => absurd (h _ hmem).1 (by decide)
    obtain ⟨hnetloc, hpaths⟩ := append_slash (hslash (rebuilt_clean u hclean)) (hslash hclean)
      (pathText_head (.inr hfrontHead)) (hpath ▸ hhead) htext
    have hnone : spaces = [] := by
      have hlength := pathText_length hfrontNe
      rw [hpaths, length_append] at hlength
      exact length_eq_zero_iff.1 (by omega)
    have hat : '@' ∉ hostOf u split.netloc := fun hmem => (hostOf_clean u hs.netloc _ hmem).2.2 rfl
    have huser : userOf (rebuilt u split.netloc p) = userOf split.netloc :=
      (credentials_netlocText hat (fun hmem => (mem_userOf hmem).2 rfl)).1
    have hhosts : hostOf u (rebuilt u split.netloc p) ++ portText q
        = hostOf u split.netloc ++ portText p := by
      unfold rebuilt at hnetloc huser
      rw [huser] at hnetloc
      exact netlocText_cancel hnetloc
    have hopen := no_bracket_of_rebuilt u hs.netloc hbrackets haccepts.port hhosts
    refine ⟨⟨hopen, hbrackets, ?_⟩, ?_⟩
    · exact colon_of_rebuilt u hs.netloc hopen haccepts.host haccepts.port hhosts
    rw [hpath, hnone, append_nil]
    exact hplain

end

/-! ## Scp addresses -/

lemma isUserChar_spec (h : isUserChar c = true) : (c ≠ ':' ∧ c ≠ '/') ∧ isSpace c = false := by
  simp only [isUserChar, Bool.not_eq_true', Bool.or_eq_false_iff, beq_eq_false_iff_ne] at h
  exact ⟨⟨h.1.2, h.1.1.1⟩, h.2⟩

lemma scpMatch?_scpText (huser : ∀ c ∈ user, isUserChar c = true)
    (hhost : ∀ c ∈ host, isHostChar c = true) : scpMatch? (scpText user host path)
      = if user.isEmpty || host.isEmpty || path.isEmpty || path.contains '\n' then none
        else some (user, host, path) := by
  have hdrop : (scpText user host path).dropWhile isUserChar = '@' :: (host ++ ':' :: path) := by
    unfold scpText
    rw [dropWhile_append_of_pos huser, dropWhile_cons_of_neg (by decide)]
  have htake : (scpText user host path).takeWhile isUserChar = user := by
    unfold scpText
    rw [takeWhile_append_of_pos huser, takeWhile_cons_of_neg (by decide), append_nil]
  have hdropHost : (host ++ ':' :: path).dropWhile isHostChar = ':' :: path := by
    rw [dropWhile_append_of_pos hhost, dropWhile_cons_of_neg (by decide)]
  have htakeHost : (host ++ ':' :: path).takeWhile isHostChar = host := by
    rw [takeWhile_append_of_pos hhost, takeWhile_cons_of_neg (by decide), append_nil]
  unfold scpMatch?
  rw [hdrop, htake]
  simp only [hdropHost, htakeHost]

lemma scpMatch?_some {raw : List Char} (h : scpMatch? raw = some (user, host, path)) :
    (∀ c ∈ user, isUserChar c = true) ∧ (∀ c ∈ host, isHostChar c = true) ∧ user ≠ [] ∧ host ≠ []
      ∧ '\n' ∉ path := by
  unfold scpMatch? at h
  split at h
  · split at h
    · split at h
      · exact absurd h.symm (some_ne_none _)
      next hguard =>
        obtain ⟨rfl, rfl, rfl⟩ : _ ∧ _ ∧ _ := by simpa using some.inj h
        simp only [Bool.or_eq_true, not_or, List.isEmpty_iff, List.contains_iff_mem] at hguard
        exact ⟨fun c hc => mem_takeWhile_imp hc, fun c hc => mem_takeWhile_imp hc,
          hguard.1.1.1, hguard.1.1.2, hguard.2⟩
    exact absurd h.symm (some_ne_none _)
  exact absurd h.symm (some_ne_none _)

lemma isHostChar_lower (h : ∀ c ∈ host, isHostChar c = true) :
    ∀ c ∈ lower u host, isHostChar c = true := by
  intro c hc
  cases hchar : isHostChar c with
  | true => rfl
  | false =>
    have hmem : c ∈ host := by
      simp only [isHostChar, Bool.not_eq_false', Bool.or_eq_true, beq_iff_eq] at hchar
      rcases hchar with (rfl | rfl) | hspace
      · exact mem_lower_mark u rfl hc
      · exact mem_lower_mark u rfl hc
      exact space_of_mem_lower u hspace hc
    exact hchar.symm.trans (h c hmem)

lemma canonicalize_scpText {user host front spaces : List Char}
    (huser : ∀ c ∈ user, isUserChar c = true) (hhost : ∀ c ∈ host, isHostChar c = true)
    (huserNe : user ≠ []) (hhostNe : host ≠ []) (hline : '\n' ∉ front)
    (hspaces : ∀ c ∈ spaces, isSpace c = true) (hplain : PlainEnd front) :
    canonicalizePluginSource u m (scpText user host (front ++ spaces))
      = if front.isEmpty then localSource m (scpText user host front)
        else .ok (gitSource (scpText user (lower u host) (rstripSlash front))) := by
  have hstrip : strip (scpText user host (front ++ spaces)) = scpText user host front := by
    have hassoc : scpText user host (front ++ spaces) = scpText user host front ++ spaces := by
      simp [scpText]
    rw [hassoc]
    refine strip_append (fun c hc => ?_) (fun c hc => ?_) (by simp [scpText]) hspaces
    · cases user with
      | nil => exact absurd rfl huserNe
      | cons d =>
        rw [← mem_some.1 hc]
        exact (isUserChar_spec (huser d mem_cons_self)).2
    have hshape : scpText user host front = (user ++ '@' :: host) ++ (':' :: front) := by
      simp [scpText]
    rw [hshape, getLast?_append_of_ne_nil _ (cons_ne_nil _ _)] at hc
    cases front with
    | nil =>
      rw [← mem_some.1 hc]
      decide
    | cons =>
      rw [getLast?_cons_cons] at hc
      exact hplain c hc
  obtain ⟨split, hsplit, hscheme⟩ := @urlsplit_no_scheme u user (host ++ ':' :: front)
    (fun c hc => (isUserChar_spec (huser c hc)).1)
  have hurl : urlsplit u (scpText user host front) = .ok split := hsplit
  have hnonempty : (scpText user host front).isEmpty = false := by
    rw [isEmpty_eq_false_iff]
    simp [scpText]
  unfold canonicalizePluginSource
  simp only [hstrip, hnonempty, hurl, hscheme, scpMatch?_scpText huser hhost,
    isEmpty_eq_false_iff.2 huserNe, isEmpty_eq_false_iff.2 hhostNe]
  cases front with
  | nil => rfl
  | cons c front =>
    have hno : (c :: front).contains '\n' = false := by
      cases hcontains : (c :: front).contains '\n' with
      | false => rfl
      | true => exact absurd (List.contains_iff_mem.1 hcontains) hline
    rw [hno]
    rfl

lemma asUri_ne_scpText {p : List Char} (huser : ∀ c ∈ user, isUserChar c = true) :
    asUri p ≠ scpText user host path := by
  intro heq
  have hdrop : (scpText user host path).dropWhile isUserChar = '@' :: (host ++ ':' :: path) := by
    unfold scpText
    rw [dropWhile_append_of_pos huser, dropWhile_cons_of_neg (by decide)]
  rw [← heq] at hdrop
  have hfile : (asUri p).dropWhile isUserChar = ':' :: '/' :: '/' :: quote p := by
    unfold asUri
    rw [dropWhile_append_of_pos (all_eq_true.1 rfl), dropWhile_cons_of_neg (by decide)]
  rw [hfile] at hdrop
  exact absurd (cons.inj hdrop).1 (by decide)

section
variable {user host path : List Char}

lemma scp_again (huser : ∀ c ∈ user, isUserChar c = true) (hhost : ∀ c ∈ host, isHostChar c = true)
    (huserNe : user ≠ []) (hhostNe : host ≠ []) (hline : '\n' ∉ path)
    (hne : rstripSlash path ≠ []) (hplain : PlainEnd (rstripSlash path)) :
    canonicalizePluginSource u m (scpText user (lower u host) (rstripSlash path))
      = .ok (gitSource (scpText user (lower u host) (rstripSlash path))) := by
  have hread := @canonicalize_scpText u m user (lower u host) (rstripSlash path) [] huser
    (isHostChar_lower u hhost) huserNe (lower_ne_nil u hhostNe)
    (fun hmem => hline ((rstripSlash_isPrefix path).subset hmem))
    (nofun) hplain
  have htwice : rstripSlash (rstripSlash path) = rstripSlash path := rdropWhile_idempotent _ _
  rw [append_nil] at hread
  rw [hread, if_neg (by simpa using hne), lower_eq_self u (fun c hc => lowered_of_mem u hc), htwice]

lemma scp_again_only (huser : ∀ c ∈ user, isUserChar c = true)
    (hhost : ∀ c ∈ host, isHostChar c = true) (huserNe : user ≠ []) (hhostNe : host ≠ [])
    (hline : '\n' ∉ path) {again : Source}
    (hagain : canonicalizePluginSource u m (scpText user (lower u host) (rstripSlash path)) = .ok again)
    (hsame : again.canonical = scpText user (lower u host) (rstripSlash path)) :
    rstripSlash path ≠ [] ∧ PlainEnd (rstripSlash path) := by
  obtain ⟨front, spaces, hpath, hspaces, hplain⟩ := rstrip_spec (rstripSlash path)
  have hfrontLine : '\n' ∉ front := by
    intro hmem
    refine hline ((rstripSlash_isPrefix path).subset ?_)
    rw [hpath]
    exact mem_append_left _ hmem
  have hread := canonicalize_scpText u m huser (isHostChar_lower u hhost) huserNe
    (lower_ne_nil u hhostNe) hfrontLine hspaces hplain
  rw [hpath] at hagain hsame
  rw [hread] at hagain
  by_cases hfront : front = []
  · -- nothing is left of the path: the text is taken for a path of this machine
    rw [hfront, if_pos (by rfl)] at hagain
    obtain ⟨_, -, rfl⟩ := localSource_ok m hagain
    exact absurd hsame (asUri_ne_scpText huser)
  rw [if_neg (by simpa using hfront)] at hagain
  have hr := ok.inj hagain
  rw [← hr, lower_eq_self u (fun c hc => lowered_of_mem u hc)] at hsame
  have hpaths : rstripSlash front = front ++ spaces := by
    have htext : scpText user (lower u host) (rstripSlash front)
        = scpText user (lower u host) (front ++ spaces) := hsame
    unfold scpText at htext
    simpa using htext
  have hnone : spaces = [] := by
    have hlength := (rstripSlash_isPrefix front).length_le
    rw [hpaths, length_append] at hlength
    exact length_eq_zero_iff.1 (by omega)
  rw [hpath, hnone, append_nil]
  exact ⟨hfront, hplain⟩

end

/-! ## Canonicalizing again -/

lemma portOf_eq (h : port netloc = .ok p) : portOf netloc = p := by
  unfold portOf
  rw [h]

lemma canonicalize_again (h : canonicalizePluginSource u m source = .ok r) :
    (Repeats u m source → canonicalizePluginSource u m r.canonical = .ok r)
      ∧ (∀ again, canonicalizePluginSource u m r.canonical = .ok again →
          again.canonical = r.canonical → Repeats u m source) := by
  unfold canonicalizePluginSource at h
  simp only at h
  split at h
  · cases h
  cases hsplit : urlsplit u (strip source) with
  | error => rw [hsplit] at h; cases h
  | ok split =>
    rw [hsplit] at h
    have hs := urlsplit_splits u hsplit
    have hrepeats : Repeats u m source ↔ SplitRepeats u m (strip source) split :=
      ⟨fun hall => hall split hsplit, fun hone _ hother => by
        rw [← ok.inj (hsplit.symm.trans hother)]
        exact hone⟩
    rw [hrepeats]
    unfold SplitRepeats
    simp only at h
    by_cases hfile : split.scheme = ['f', 'i', 'l', 'e']
    · rw [if_pos (by simpa using hfile)] at h
      rw [if_pos hfile]
      unfold canonicalizeFile at h
      split at h
      · cases h
      exact local_again u m h
    rw [if_neg (by simpa using hfile)] at h
    rw [if_neg hfile]
    by_cases hscheme : split.scheme = []
    · rw [if_neg (by simp [hscheme])] at h
      rw [if_neg (by simp [hscheme])]
      cases hmatch : scpMatch? (strip source) with
      | none =>
        rw [hmatch] at h
        exact local_again u m h
      | some parts =>
        obtain ⟨_, _, _⟩ := parts
        rw [hmatch] at h
        obtain ⟨huser, hhost, huserNe, hhostNe, hline⟩ := scpMatch?_some hmatch
        rw [← ok.inj h]
        exact ⟨fun hcond => scp_again u m huser hhost huserNe hhostNe hline hcond.1 hcond.2,
          fun again hagain hsame => scp_again_only u m huser hhost huserNe hhostNe hline hagain hsame⟩
    rw [if_pos (by simpa using hscheme)] at h
    rw [if_pos hscheme]
    obtain ⟨_, haccepts, rfl⟩ := (canonicalizeUrl_iff u).1 h
    rw [portOf_eq haccepts.port]
    exact ⟨fun hcond => url_again u m hs haccepts hcond.1 hcond.2,
      fun again hagain hsame => url_again_only u m hs haccepts hagain hsame⟩

/-! ## The update without a source -/

/-- A store whose sources are canonicalized by this function; the texts of the
URL errors are urllib's. -/
def storeOf (o : Store.Outside) (texts : UrlError → String) : Store.Outside :=
  { o with
    canonicalize := fun source =>
      match canonicalizePluginSource u m source.toList with
      | .ok r => .ok (String.ofList r.canonical, r.kind)
      | .error (.text message) => .error message
      | .error (.url e) => .error (texts e) }

variable (o : Store.Outside) (texts : UrlError → String)

lemma storeOf_ok (h : canonicalizePluginSource u m source = .ok r) :
    (storeOf u m o texts).canonicalize (String.ofList source)
      = .ok (String.ofList r.canonical, r.kind) := by
  show (match canonicalizePluginSource u m (String.ofList source).toList with
    | .ok r => _
    | .error (.text message) => _
    | .error (.url e) => _) = _
  rw [String.toList_ofList, h]

variable {records : Store.Records} {pluginId : Store.Text} {current : Store.Record}

lemma update_of_repeats (h : canonicalizePluginSource u m source = .ok r)
    (hagain : canonicalizePluginSource u m r.canonical = .ok r)
    (hrecord : Store.requireRecord records pluginId = .ok current)
    (hsource : current.source = String.ofList r.canonical) (env : Store.Env)
    (subdirectory : Option Store.Text) (acknowledge : Bool) :
    Store.update (storeOf u m o texts) env records pluginId none subdirectory acknowledge
      = Store.update (storeOf u m o texts) env records pluginId (some (String.ofList source))
          subdirectory acknowledge := by
  have hsame : (storeOf u m o texts).canonicalize current.source
      = (storeOf u m o texts).canonicalize (String.ofList source) := by
    rw [hsource, storeOf_ok u m o texts h, storeOf_ok u m o texts hagain]
  unfold Store.update
  rw [hrecord]
  show ((storeOf u m o texts).canonicalize current.source >>= _) = _
  rw [hsame]
  rfl

lemma update_refused
    (hnot : ∀ again, canonicalizePluginSource u m r.canonical = .ok again →
      again.canonical ≠ r.canonical) (hrecord : Store.requireRecord records pluginId = .ok current)
    (hsource : current.source = String.ofList r.canonical) :
    ∃ message, ∀ (env : Store.Env) (subdirectory : Option Store.Text) (acknowledge : Bool),
      Store.update (storeOf u m o texts) env records pluginId none subdirectory acknowledge
        = .error message := by
  cases hagain : (storeOf u m o texts).canonicalize current.source with
  | error message =>
    refine ⟨message, fun env subdirectory acknowledge => ?_⟩
    unfold Store.update
    rw [hrecord]
    show ((storeOf u m o texts).canonicalize current.source >>= _) = _
    rw [hagain]
    rfl
  | ok pair =>
    refine ⟨"plugin source cannot change during update; install it as a new package",
      fun env subdirectory acknowledge => ?_⟩
    have hne : pair.1 ≠ current.source := by
      intro heq
      cases hresult : canonicalizePluginSource u m r.canonical with
      | error e =>
        have hbad : (storeOf u m o texts).canonicalize current.source
            = match canonicalizePluginSource u m r.canonical with
              | .ok r => .ok (String.ofList r.canonical, r.kind)
              | .error (.text message) => .error message
              | .error (.url e) => .error (texts e) := by
          rw [hsource]
          show (match canonicalizePluginSource u m (String.ofList r.canonical).toList with
            | .ok r => _
            | .error (.text message) => _
            | .error (.url e) => _) = _
          rw [String.toList_ofList]
        rw [hagain, hresult] at hbad
        cases e <;> cases hbad
      | ok again =>
        have hpair := storeOf_ok u m o texts hresult
        rw [← hsource, hagain] at hpair
        have hfirst : pair.1 = String.ofList again.canonical := congrArg Prod.fst (ok.inj hpair)
        rw [heq, hsource] at hfirst
        exact hnot again hresult (String.ofList_injective hfirst).symm
    unfold Store.update
    rw [hrecord]
    show ((storeOf u m o texts).canonicalize current.source >>= _) = _
    rw [hagain]
    show (if pair.1 ≠ current.source then _ else _) = _
    rw [if_pos hne]

/-- **A canonical text is its own canonical text if and only if the source it
was made from repeats, and then an update without a source goes as one with
that source; otherwise every such update is refused.** -/
theorem source_again_iff {source : List Char} {r : Source}
    (h : canonicalizePluginSource u m source = .ok r) :
    (canonicalizePluginSource u m r.canonical = .ok r ↔ Repeats u m source)
      ∧ ∀ (o : Store.Outside) (texts : UrlError → String) (records : Store.Records)
          (pluginId : Store.Text) (current : Store.Record),
          Store.requireRecord records pluginId = .ok current →
          current.source = String.ofList r.canonical →
          (Repeats u m source → ∀ (env : Store.Env) (subdirectory : Option Store.Text)
            (acknowledge : Bool),
            Store.update (storeOf u m o texts) env records pluginId none subdirectory acknowledge
              = Store.update (storeOf u m o texts) env records pluginId
                  (some (String.ofList source)) subdirectory acknowledge)
          ∧ (¬ Repeats u m source → ∃ message, ∀ (env : Store.Env)
              (subdirectory : Option Store.Text) (acknowledge : Bool),
              Store.update (storeOf u m o texts) env records pluginId none subdirectory acknowledge
                = .error message) := by
  obtain ⟨hback, honly⟩ := canonicalize_again u m h
  refine ⟨⟨fun hagain => honly r hagain rfl, hback⟩, ?_⟩
  intro o texts records pluginId current hrecord hsource
  refine ⟨fun hrepeats => ?_, fun hnot => ?_⟩
  · exact update_of_repeats u m o texts h (hback hrepeats) hrecord hsource
  exact update_refused u m o texts
    (fun again hagain hsame => hnot (honly again hagain hsame)) hrecord hsource

def plainUnicode : Unicode where
  lowerImage _ c _ := [c]
  nfkc text := text
  image_ne_nil _ _ _ := List.cons_ne_nil _ _
  image_ascii before c after d hc hd hascii := by
    rw [List.mem_singleton.1 hd, hc] at hascii
    exact Bool.noConfusion hascii
  image_fixed _ _ _ _ _ _ _ _ _ := rfl
  image_space _ _ _ _ _ hd _ := List.mem_singleton.1 hd
  nfkc_delimiter x hx text := by
    constructor
    · exact fun h => ⟨x, h, List.mem_singleton_self x⟩
    · rintro ⟨c, hc, hxc⟩
      exact List.mem_singleton.1 hxc ▸ hc
  nfkc_ascii _ _ := rfl
  nfkc_image x hx before c after d _ hd _ hmem := List.mem_singleton.1 hd ▸ hmem

def plainMachine : Machine where
  resolve text := if text.head? = some '/' then .ok text else .ok ('/' :: text)
  resolve_absolute text path h := by
    split at h
    · next hhead => rw [← Except.ok.inj h, hhead]
    · rw [← Except.ok.inj h]
      rfl

theorem source_again_scp : canonicalizePluginSource plainUnicode plainMachine "git@Host:a/".toList
        = .ok (gitSource "git@host:a".toList)
      ∧ (canonicalizePluginSource plainUnicode plainMachine "git@host:a".toList
          = .ok (gitSource "git@host:a".toList)
        ↔ Repeats plainUnicode plainMachine "git@Host:a/".toList) := by
  have h : canonicalizePluginSource plainUnicode plainMachine "git@Host:a/".toList
      = .ok (gitSource "git@host:a".toList) := by decide +kernel
  exact ⟨h, (source_again_iff plainUnicode plainMachine h).1⟩

/-- An IPv6 host: the brackets are dropped, and what is left is no URL. -/
theorem ipv6_not_repeated :
    canonicalizePluginSource plainUnicode plainMachine "ssh://git@[::1]:22/r".toList
        = .ok (gitSource "ssh://git@::1:22/r".toList)
      ∧ canonicalizePluginSource plainUnicode plainMachine "ssh://git@::1:22/r".toList
        = .error (.text "invalid Git URL")
      ∧ canonicalizePluginSource plainUnicode plainMachine "ssh://git@[fe80::1]/r".toList
        = .ok (gitSource "ssh://git@fe80::1/r".toList)
      ∧ canonicalizePluginSource plainUnicode plainMachine "ssh://git@fe80::1/r".toList
        = .error (.url .portText) := by
  decide +kernel

end DeterminFlow.Plugins.SourceCanonical
