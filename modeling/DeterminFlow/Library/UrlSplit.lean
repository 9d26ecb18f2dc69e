/-
  Library.UrlSplit
  **SPLITTING A URL.**

  `urllib.parse.urlsplit` and the parts it offers: user, password, host and
  port of the authority, with the bracket check of IPv6 hosts and the check
  against characters that normalise to a delimiter.  The Unicode tables are
  a parameter that carries what the tables keep.
-/
import DeterminFlow.Library.PyText

namespace DeterminFlow.Library.UrlSplit

open Library List

/-! ## `str.partition` -/

/-- `text.partition(sep)`: what is before, whether it was found, what is after. -/
def partition (sep : Char) (text : List Char) : List Char × Bool × List Char :=
  (text.takeWhile (· != sep), text.contains sep, (text.dropWhile (· != sep)).tail)

/-- `text.rpartition(sep)`: all of the text is after a separator not found. -/
def rpartition (sep : Char) (text : List Char) : List Char × Bool × List Char :=
  if text.contains sep then
    ((text.reverse.dropWhile (· != sep)).tail.reverse, true,
      (text.reverse.takeWhile (· != sep)).reverse)
  else ([], false, text)

variable {sep d c x : Char} {netloc url : List Char} {n : Nat}

lemma partition_of_not_mem {text : List Char} (h : sep ∉ text) :
    partition sep text = (text, false, []) := by
  have hall : ∀ c ∈ text, (c != sep) = true := by
    intro c hc
    rw [bne_iff_ne]
    rintro rfl
    exact h hc
  unfold partition
  rw [takeWhile_eq_self_iff.2 hall, dropWhile_eq_nil_iff.2 hall]
  simp [h]

lemma partition_append {sep : Char} {before after : List Char} (h : sep ∉ before) :
    partition sep (before ++ sep :: after) = (before, true, after) := by
  have hall : ∀ c ∈ before, (c != sep) = true := by
    intro c hc
    rw [bne_iff_ne]
    rintro rfl
    exact h hc
  unfold partition
  rw [takeWhile_append_of_pos hall, dropWhile_append_of_pos hall]
  simp

lemma rpartition_of_not_mem {text : List Char} (h : sep ∉ text) :
    rpartition sep text = ([], false, text) := by
  unfold rpartition
  rw [if_neg (by simpa using h)]

lemma rpartition_append {before after : List Char} (h : sep ∉ after) :
    rpartition sep (before ++ sep :: after) = (before, true, after) := by
  have hall : ∀ c ∈ after.reverse, (c != sep) = true := by
    intro c hc
    rw [bne_iff_ne]
    rintro rfl
    exact h (mem_reverse.1 hc)
  unfold rpartition
  rw [if_pos (by simp), reverse_append, reverse_cons, append_assoc,
    takeWhile_append_of_pos hall, dropWhile_append_of_pos hall]
  simp

lemma partition_spec (sep : Char) (text : List Char) :
    (sep ∉ text ∧ partition sep text = (text, false, []))
      ∨ ∃ before after, text = before ++ sep :: after ∧ sep ∉ before
          ∧ partition sep text = (before, true, after) := by
  by_cases h : sep ∈ text
  · obtain ⟨before, after, htext, hbefore⟩ := eq_append_cons_of_mem h
    exact .inr ⟨before, after, htext, hbefore, by rw [htext]; exact partition_append hbefore⟩
  exact .inl ⟨h, partition_of_not_mem h⟩

lemma rpartition_spec (sep : Char) (text : List Char) :
    (sep ∉ text ∧ rpartition sep text = ([], false, text))
      ∨ ∃ before after, text = before ++ sep :: after ∧ sep ∉ after
          ∧ rpartition sep text = (before, true, after) := by
  by_cases h : sep ∈ text
  · obtain ⟨before, after, htext, hafter⟩ :=
      eq_append_cons_of_mem (mem_reverse.2 h)
    have hsplit : text = after.reverse ++ sep :: before.reverse := by
      rw [← reverse_reverse text, htext]
      simp
    have hno : sep ∉ before.reverse := fun hmem => hafter (mem_reverse.1 hmem)
    exact .inr ⟨after.reverse, before.reverse, hsplit, hno, by rw [hsplit]; exact rpartition_append hno⟩
  exact .inl ⟨h, rpartition_of_not_mem h⟩

/-! ## Unicode tables -/

def isAscii (c : Char) : Bool := c.toNat < 128

def delimiters : List Char := ['/', '?', '#', '@', ':']

/-- What is taken from the Unicode tables: the lower case of a character
outside ASCII between its neighbours (a final sigma has one of its own), and
the NFKC form of a text. -/
structure Unicode where
  lowerImage : List Char → Char → List Char → List Char
  nfkc : List Char → List Char
  image_ne_nil : ∀ before c after, lowerImage before c after ≠ []
  /-- An ASCII character of an image is a small letter (`K` of the Kelvin sign). -/
  image_ascii : ∀ before c after d, isAscii c = false → d ∈ lowerImage before c after →
    isAscii d = true → d.isLower = true
  /-- What is lower case stays. -/
  image_fixed : ∀ before c after d, isAscii c = false → d ∈ lowerImage before c after →
    isAscii d = false → ∀ before' after', lowerImage before' d after' = [d]
  image_space : ∀ before c after d, isAscii c = false → d ∈ lowerImage before c after →
    PyText.isSpace d = true → d = c
  /-- No composition makes or takes away a delimiter. -/
  nfkc_delimiter : ∀ x ∈ delimiters, ∀ text, x ∈ nfkc text ↔ ∃ c ∈ text, x ∈ nfkc [c]
  nfkc_ascii : ∀ c, isAscii c = true → nfkc [c] = [c]
  /-- The characters that normalise to a delimiter have no case. -/
  nfkc_image : ∀ x ∈ delimiters, ∀ before c after d, isAscii c = false →
    d ∈ lowerImage before c after → isAscii d = false → x ∈ nfkc [d] → x ∈ nfkc [c]

variable (u : Unicode)

def lowerChar (before : List Char) (c : Char) (after : List Char) : List Char :=
  if isAscii c then [c.toLower] else u.lowerImage before c after

def lowerFrom (before : List Char) : List Char → List Char
  | [] => []
  | c :: after => lowerChar u before c after ++ lowerFrom (before ++ [c]) after

/-- `text.lower()`. -/
def lower (text : List Char) : List Char := lowerFrom u [] text

def Lowered (c : Char) : Prop := ∀ before after, lowerChar u before c after = [c]

lemma mem_lowerFrom {text before : List Char} (h : d ∈ lowerFrom u before text) :
    ∃ c ∈ text, ∃ before after, d ∈ lowerChar u before c after := by
  induction text generalizing before with
  | nil => cases h
  | cons c text ih =>
    rcases mem_append.1 h with hhead | htail
    · exact ⟨c, mem_cons_self, before, text, hhead⟩
    obtain ⟨c', hc', hd⟩ := ih htail
    exact ⟨c', mem_cons_of_mem _ hc', hd⟩

lemma mem_lower {text : List Char} (h : d ∈ lower u text) :
    ∃ c ∈ text, ∃ before after, d ∈ lowerChar u before c after := mem_lowerFrom u h

lemma ascii_forall {P : Char → Prop} (h : ∀ n < 128, P (Char.ofNat n)) (hc : isAscii c = true) :
    P c := by
  have hlt : c.toNat < 128 := by simpa [isAscii] using hc
  rw [← Char.ofNat_toNat c]
  exact h _ hlt

lemma lowered_of_mem {text : List Char} (h : d ∈ lower u text) : Lowered u d := by
  obtain ⟨c, -, before, after, hd⟩ := mem_lower u h
  intro before' after'
  unfold lowerChar at hd ⊢
  by_cases hc : isAscii c = true
  · rw [if_pos hc, mem_singleton] at hd
    have htwice := ascii_forall
      (P := fun c => isAscii c.toLower = true ∧ c.toLower.toLower = c.toLower) (by decide) hc
    rw [hd, if_pos htwice.1, htwice.2]
  rw [if_neg hc] at hd
  by_cases hascii : isAscii d = true
  · have hsmall := u.image_ascii before c after d (by simpa using hc) hd hascii
    have hkeep := ascii_forall (P := fun c => c.isLower = true → c.toLower = c) (by decide) hascii
    rw [if_pos hascii, hkeep hsmall]
  rw [if_neg hascii]
  exact u.image_fixed before c after d (by simpa using hc) hd (by simpa using hascii) before' after'

lemma lowerFrom_eq_self {text : List Char} (h : ∀ c ∈ text, Lowered u c) :
    ∀ before, lowerFrom u before text = text := by
  induction text with
  | nil => intro before; rfl
  | cons c text ih =>
    intro before
    rw [lowerFrom, h c mem_cons_self, ih (fun c hc => h c (mem_cons_of_mem _ hc))]
    rfl

lemma lower_eq_self {text : List Char} (h : ∀ c ∈ text, Lowered u c) : lower u text = text :=
  lowerFrom_eq_self u h []

lemma lower_ne_nil {text : List Char} (h : text ≠ []) : lower u text ≠ [] := by
  cases text with
  | nil => exact absurd rfl h
  | cons c text =>
    intro hnil
    have hhead : lowerChar u [] c text = [] := (append_eq_nil_iff.1 hnil).1
    unfold lowerChar at hhead
    split at hhead
    · exact cons_ne_nil _ _ hhead
    exact u.image_ne_nil _ _ _ hhead

def isMark (c : Char) : Bool := isAscii c && !c.isAlpha

lemma mem_lower_mark (hx : isMark x = true) {text : List Char} (h : x ∈ lower u text) :
    x ∈ text := by
  simp only [isMark, Bool.and_eq_true, Bool.not_eq_true'] at hx
  obtain ⟨c, hc, before, after, hmem⟩ := mem_lower u h
  unfold lowerChar at hmem
  by_cases hascii : isAscii c = true
  · rw [if_pos hascii, mem_singleton] at hmem
    have hkeep := ascii_forall (P := fun c => c.toLower.isAlpha = false → c.toLower = c) (by decide)
      hascii
    rw [hmem, hkeep (hmem ▸ hx.2)]
    exact hc
  rw [if_neg hascii] at hmem
  have hletter : x.isAlpha = true := by
    show (x.isUpper || x.isLower) = true
    rw [u.image_ascii before c after x (by simpa using hascii) hmem hx.1, Bool.or_true]
  exact absurd hx.2 (by rw [hletter]; exact Bool.noConfusion)

lemma space_of_mem_lower (hx : PyText.isSpace x = true) {text : List Char}
    (h : x ∈ lower u text) : x ∈ text := by
  obtain ⟨c, hc, before, after, hmem⟩ := mem_lower u h
  unfold lowerChar at hmem
  by_cases hascii : isAscii c = true
  · rw [if_pos hascii, mem_singleton] at hmem
    have hkeep := ascii_forall
      (P := fun c => PyText.isSpace c.toLower = true → c.toLower = c) (by decide) hascii
    rw [hmem, hkeep (hmem ▸ hx)]
    exact hc
  rw [if_neg hascii] at hmem
  rw [u.image_space before c after x (by simpa using hascii) hmem hx]
  exact hc

def Harmless (c : Char) : Prop := isAscii c = false → ∀ x ∈ delimiters, x ∉ u.nfkc [c]

lemma harmless_of_mem_lower {text : List Char} (h : ∀ c ∈ text, Harmless u c)
    (hd : d ∈ lower u text) : Harmless u d := by
  intro hascii x hx hmem
  obtain ⟨c, hc, before, after, hfrom⟩ := mem_lower u hd
  unfold lowerChar at hfrom
  by_cases hca : isAscii c = true
  · rw [if_pos hca, mem_singleton] at hfrom
    have hstay := ascii_forall (P := fun c => isAscii c.toLower = true) (by decide) hca
    rw [← hfrom, hascii] at hstay
    exact Bool.noConfusion hstay
  rw [if_neg hca] at hfrom
  exact h c hc (by simpa using hca) x hx 
    (u.nfkc_image x hx before c after d (by simpa using hca) hfrom hascii hmem)

/-! ## The host in brackets -/

/-- `\Av[a-fA-F0-9]+\..+\Z`; the line breaks are gone by then. -/
def isFutureHost : List Char → Bool
  | 'v' :: rest =>
    !(rest.takeWhile Char.isHexDigit).isEmpty
      && (rest.dropWhile Char.isHexDigit).head? == some '.'
      && !(rest.dropWhile Char.isHexDigit).tail.isEmpty
  | _ => false

/-- `IPv4Address._parse_octet`. -/
def isOctet (text : List Char) : Bool :=
  !text.isEmpty && text.all Char.isDigit && text.length ≤ 3
    && (text == ['0'] || text.head? != some '0') && Nat.ofDigitChars 10 text 0 ≤ 255

def isIPv4 (text : List Char) : Bool :=
  (PyText.splitAt '.' text).length == 4 && (PyText.splitAt '.' text).all isOctet

/-- `IPv6Address._parse_hextet`. -/
def isHextet (text : List Char) : Bool :=
  !text.isEmpty && text.length ≤ 4 && text.all Char.isHexDigit

def ipv6Parts (text : List Char) : Option (List (List Char)) :=
  let parts := PyText.splitAt ':' text
  if parts.length < 3 then none
  else
    let last := parts.getLast?.getD []
    if last.contains '.' then
      if isIPv4 last then some (parts.dropLast ++ [['0'], ['0']]) else none
    else some parts

/-- `IPv6Address._ip_int_from_string` accepts the parts: eight of them, or
fewer around one empty part inside. -/
def acceptsParts (parts : List (List Char)) : Bool :=
  let inside := (parts.drop 1).dropLast
  if 9 < parts.length then false
  else if 1 < (inside.filter List.isEmpty).length then false
  else
    match inside.findIdx? List.isEmpty with
    | none => parts.length == 8 && parts.all isHextet
    | some i =>
      let leading := (parts.head?.getD []).isEmpty
      let trailing := (parts.getLast?.getD []).isEmpty
      let high := i + 1
      let low := parts.length - high - 1
      !(leading && high != 1) && !(trailing && low != 1)
        && (if leading then 0 else high) + (if trailing then 0 else low) ≤ 7
        && parts.all (fun part => part.isEmpty || isHextet part)

/-- `ipaddress.IPv6Address(text)` succeeds. -/
def isIPv6 (text : List Char) : Bool :=
  let zoned := partition '%' text
  !text.contains '/'
    && !(zoned.2.1 && (zoned.2.2.isEmpty || zoned.2.2.contains '%'))
    && (ipv6Parts zoned.1).any acceptsParts

def checkBracketedHost (host : List Char) : Bool :=
  if host.head? == some 'v' then isFutureHost host else isIPv6 host

/-- The part of the authority after its last `@`. -/
def hostinfo (netloc : List Char) : List Char := (rpartition '@' netloc).2.2

def checkBracketedNetloc (netloc : List Char) : Bool :=
  let opened := partition '[' (hostinfo netloc)
  if opened.2.1 then
    let closed := partition ']' opened.2.2
    opened.1.isEmpty && (closed.2.2.isEmpty || closed.2.2.head? == some ':')
      && checkBracketedHost closed.1
  else checkBracketedHost (partition ':' (hostinfo netloc)).1

/-- The bracket checks of `urlsplit`. -/
def bracketsOk (netloc : List Char) : Bool :=
  if netloc.contains '[' && netloc.contains ']' then checkBracketedNetloc netloc
  else !netloc.contains '[' && !netloc.contains ']'

def checkNetloc (netloc : List Char) : Bool :=
  let bare := netloc.filter (fun c => !(['@', ':', '#', '?'].contains c))
  netloc.all isAscii || u.nfkc bare == bare || !delimiters.any (fun x => (u.nfkc bare).contains x)

lemma mem_bare : c ∈ netloc.filter (fun c => !(['@', ':', '#', '?'].contains c))
      ↔ c ∈ netloc ∧ c ≠ '@' ∧ c ≠ ':' ∧ c ≠ '#' ∧ c ≠ '?' := by
  simp

lemma delimiter_not_bare (hslash : '/' ∉ netloc) :
    ∀ x ∈ delimiters, x ∉ netloc.filter (fun c => !(['@', ':', '#', '?'].contains c)) := by
  intro x hx hmem
  have hbare := mem_bare.1 hmem
  simp only [delimiters, mem_cons, not_mem_nil, or_false] at hx
  rcases hx with rfl | rfl | rfl | rfl | rfl
  · exact hslash hbare.1
  · exact hbare.2.2.2.2 rfl
  · exact hbare.2.2.2.1 rfl
  · exact hbare.2.1 rfl
  exact hbare.2.2.1 rfl

lemma checkNetloc_iff (hslash : '/' ∉ netloc) :
    checkNetloc u netloc = true ↔ ∀ c ∈ netloc, Harmless u c := by
  have hno := delimiter_not_bare hslash
  generalize hbare : netloc.filter (fun c => !(['@', ':', '#', '?'].contains c)) = bare at hno
  constructor
  · intro h c hc hascii x hx hmem
    have hcbare : c ∈ bare := by
      rw [← hbare]
      refine mem_bare.2 ⟨hc, ?_, ?_, ?_, ?_⟩ <;> rintro rfl <;> cases hascii
    have hxbare : x ∈ u.nfkc bare := (u.nfkc_delimiter x hx bare).2 ⟨c, hcbare, hmem⟩
    unfold checkNetloc at h
    simp only [hbare, Bool.or_eq_true, Bool.not_eq_true', all_eq_true, beq_iff_eq,
      any_eq_false, contains_iff_mem] at h
    rcases h with (hall | hsame) | hnone
    · exact absurd (hall c hc) (by rw [hascii]; exact Bool.noConfusion)
    · exact hno x hx (hsame ▸ hxbare)
    exact hnone x hx hxbare
  intro h
  have hnone : ∀ x ∈ delimiters, x ∉ u.nfkc bare := by
    intro x hx hmem
    obtain ⟨c, hc, hxc⟩ := (u.nfkc_delimiter x hx bare).1 hmem
    cases hascii : isAscii c with
    | true =>
      rw [u.nfkc_ascii c hascii, mem_singleton] at hxc
      exact hno x hx (hxc ▸ hc)
    | false => exact h c (mem_bare.1 (hbare ▸ hc)).1 hascii x hx hxc
  unfold checkNetloc
  simp only [hbare, Bool.or_eq_true, Bool.not_eq_true', any_eq_false, contains_iff_mem]
  exact .inr hnone

/-! ## User, host and port -/

/-- `username` and `password`; both are `None` without an `@`. -/
def credentials (netloc : List Char) : Option (List Char) × Option (List Char) :=
  let info := rpartition '@' netloc
  if info.2.1 then
    let parts := partition ':' info.1
    (some parts.1, if parts.2.1 then some parts.2.2 else none)
  else (none, none)

/-- `_hostinfo`: the host and the text of the port. -/
def hostPort (netloc : List Char) : List Char × List Char :=
  let opened := partition '[' (hostinfo netloc)
  if opened.2.1 then
    let closed := partition ']' opened.2.2
    (closed.1, (partition ':' closed.2.2).2.2)
  else ((partition ':' (hostinfo netloc)).1, (partition ':' (hostinfo netloc)).2.2)

/-- `hostname`: lower case up to a zone. -/
def hostname (netloc : List Char) : List Char :=
  let parts := partition '%' (hostPort netloc).1
  lower u parts.1 ++ (if parts.2.1 then '%' :: parts.2.2 else [])

inductive UrlError where
  | brackets
  | normalization
  | portText
  | portRange
  deriving DecidableEq

def port (netloc : List Char) : Except UrlError (Option Nat) :=
  let text := (hostPort netloc).2
  if text.isEmpty then .ok none
  else if text.all Char.isDigit then
    if Nat.ofDigitChars 10 text 0 ≤ 65535 then .ok (some (Nat.ofDigitChars 10 text 0))
    else .error .portRange
  else .error .portText

lemma port_le (h : port netloc = .ok (some n)) : n ≤ 65535 := by
  unfold port at h
  simp only at h
  split at h
  · exact absurd (Except.ok.inj h) (Option.some_ne_none n).symm
  split at h
  · split at h
    · next hle =>
      have hn := Option.some.inj (Except.ok.inj h)
      omega
    cases h
  cases h

def portText : Option Nat → List Char
  | none => []
  | some n => ':' :: Nat.toDigits 10 n

def netlocText (user host : List Char) (port : Option Nat) : List Char :=
  (if user.isEmpty then [] else user ++ ['@']) ++ host ++ portText port

lemma netlocText_nil (host : List Char) (p : Option Nat) :
    netlocText [] host p = host ++ portText p := rfl

lemma netlocText_user {user : List Char} (hne : user ≠ []) (host : List Char) (p : Option Nat) :
    netlocText user host p = user ++ '@' :: (host ++ portText p) := by
  cases user with
  | nil => exact absurd rfl hne
  | cons => simp [netlocText]

lemma digits_isDigit : ∀ c ∈ Nat.toDigits 10 n, c.isDigit = true := fun _ hc =>
  Nat.isDigit_of_mem_toDigits (by decide) (by decide) hc

lemma not_mem_portText (hcolon : x ≠ ':') (hdigit : x.isDigit = false) (p : Option Nat) :
    x ∉ portText p := by
  cases p with
  | none => exact not_mem_nil
  | some =>
    intro hmem
    rcases mem_cons.1 hmem with heq | hmem
    · exact hcolon heq
    exact absurd (digits_isDigit x hmem) (by rw [hdigit]; exact Bool.noConfusion)

section
variable {user host : List Char} {p : Option Nat}

lemma hostinfo_netlocText (hat : '@' ∉ host) :
    hostinfo (netlocText user host p) = host ++ portText p := by
  have hno : '@' ∉ host ++ portText p := by
    rw [mem_append]
    rintro (h | h)
    · exact hat h
    exact not_mem_portText (by decide) (by decide) p h
  unfold hostinfo
  by_cases hne : user = []
  · rw [hne, netlocText_nil, rpartition_of_not_mem hno]
  rw [netlocText_user hne, rpartition_append hno]

lemma credentials_netlocText (hat : '@' ∉ host) (hcolon : ':' ∉ user) :
    (credentials (netlocText user host p)).1.getD [] = user
      ∧ (credentials (netlocText user host p)).2 = none := by
  have hno : '@' ∉ host ++ portText p := by
    rw [mem_append]
    rintro (h | h)
    · exact hat h
    exact not_mem_portText (by decide) (by decide) p h
  unfold credentials
  by_cases hne : user = []
  · rw [hne, netlocText_nil, rpartition_of_not_mem hno]
    exact ⟨rfl, rfl⟩
  rw [netlocText_user hne, rpartition_append hno]
  simp only [partition_of_not_mem hcolon]
  exact ⟨rfl, rfl⟩

lemma hostPort_netlocText (hat : '@' ∉ host) (hopen : '[' ∉ host) :
    hostPort (netlocText user host p)
      = ((partition ':' (host ++ portText p)).1, (partition ':' (host ++ portText p)).2.2) := by
  have hno : '[' ∉ host ++ portText p := by
    rw [mem_append]
    rintro (h | h)
    · exact hopen h
    exact not_mem_portText (by decide) (by decide) p h
  unfold hostPort
  simp only [hostinfo_netlocText hat, partition_of_not_mem hno]
  rfl

lemma partition_portText (hcolon : ':' ∉ host) : (partition ':' (host ++ portText p)).1 = host
      ∧ (partition ':' (host ++ portText p)).2.2 = (portText p).tail := by
  cases p with
  | none =>
    rw [portText, append_nil, partition_of_not_mem hcolon]
    exact ⟨rfl, rfl⟩
  | some =>
    rw [portText, partition_append hcolon]
    exact ⟨rfl, rfl⟩

lemma zoned_eq_self (hlower : ∀ c ∈ host, Lowered u c) : lower u (partition '%' host).1
      ++ (if (partition '%' host).2.1 then '%' :: (partition '%' host).2.2 else []) = host := by
  rcases partition_spec '%' host with ⟨-, heq⟩ | ⟨_, _, hhost, -, heq⟩
  · rw [heq, lower_eq_self u hlower]
    exact append_nil _
  rw [heq, lower_eq_self u (fun c hc => hlower c (by rw [hhost]; exact mem_append_left _ hc))]
  exact hhost.symm

lemma hostname_netlocText (hat : '@' ∉ host) (hopen : '[' ∉ host) (hcolon : ':' ∉ host)
    (hlower : ∀ c ∈ host, Lowered u c) : hostname u (netlocText user host p) = host := by
  unfold hostname
  simp only [hostPort_netlocText hat hopen, (partition_portText hcolon).1]
  exact zoned_eq_self u hlower

lemma port_of_digits {netloc : List Char} {n : Nat} (hn : n ≤ 65535)
    (htext : (hostPort netloc).2 = Nat.toDigits 10 n) : port netloc = .ok (some n) := by
  have hne : (Nat.toDigits 10 n).isEmpty = false := by
    rw [isEmpty_eq_false_iff]
    exact Nat.toDigits_ne_nil
  unfold port
  simp only [htext, hne, Nat.ofDigitChars_ten_toDigits]
  rw [if_neg Bool.false_ne_true, if_pos (all_eq_true.2 digits_isDigit), if_pos hn]

lemma port_netlocText (hat : '@' ∉ host) (hopen : '[' ∉ host) (hcolon : ':' ∉ host)
    (hp : ∀ n ∈ p, n ≤ 65535) : port (netlocText user host p) = .ok p := by
  have htext : (hostPort (netlocText user host p)).2 = (portText p).tail := by
    rw [hostPort_netlocText hat hopen]
    exact (partition_portText hcolon).2
  cases p with
  | none =>
    unfold port
    simp only [htext]
    rfl
  | some n => exact port_of_digits (hp n rfl) htext

lemma mem_netlocText {x : Char} (h : x ∈ netlocText user host p) :
    x ∈ user ∨ (x = '@' ∧ user ≠ []) ∨ x ∈ host ∨ x ∈ portText p := by
  by_cases hne : user = []
  · rw [hne, netlocText_nil] at h
    exact .inr (.inr (mem_append.1 h))
  rw [netlocText_user hne] at h
  rcases mem_append.1 h with h | h
  · exact .inl h
  rcases mem_cons.1 h with h | h
  · exact .inr (.inl ⟨h, hne⟩)
  exact .inr (.inr (mem_append.1 h))

end

/-! ## `urlsplit` -/

structure SplitResult where
  scheme : List Char
  netloc : List Char
  path : List Char
  query : List Char
  fragment : List Char
  deriving DecidableEq

/-- `_WHATWG_C0_CONTROL_OR_SPACE`. -/
def isC0OrSpace (c : Char) : Bool := c.toNat ≤ 0x20

/-- `_UNSAFE_URL_BYTES_TO_REMOVE`. -/
def isUnsafe (c : Char) : Bool := c == '\t' || c == '\r' || c == '\n'

def isSchemeChar (c : Char) : Bool := c.isAlphanum || c == '+' || c == '-' || c == '.'

def isScheme (text : List Char) : Bool :=
  text.head?.any Char.isAlpha && text.all isSchemeChar

def splitScheme (url : List Char) : List Char × List Char :=
  let parts := partition ':' url
  if parts.2.1 && isScheme parts.1 then (parts.1.map Char.toLower, parts.2.2) else ([], url)

def endsNetloc (c : Char) : Bool := c == '/' || c == '?' || c == '#'

/-- The authority after `//`, and what follows it. -/
def splitNetloc : List Char → List Char × List Char
  | '/' :: '/' :: rest =>
    (rest.takeWhile (fun c => !endsNetloc c), rest.dropWhile (fun c => !endsNetloc c))
  | url => ([], url)

/-- `urlsplit(url)`. -/
def urlsplit (url : List Char) : Except UrlError SplitResult :=
  let cleaned := (url.dropWhile isC0OrSpace).filter (fun c => !isUnsafe c)
  let split := splitNetloc (splitScheme cleaned).2
  if bracketsOk split.1 then
    let fragment := partition '#' split.2
    let query := partition '?' fragment.1
    if checkNetloc u split.1 then
      .ok {
        scheme := (splitScheme cleaned).1
        netloc := split.1
        path := query.1
        query := query.2.2
        fragment := fragment.2.2 }
    else .error .normalization
  else .error .brackets

lemma dropWhile_eq_self {p : Char → Bool} {text : List Char} (h : ∀ c ∈ text.head?, p c = false) :
    text.dropWhile p = text := by
  cases text with
  | nil => rfl
  | cons c =>
    rw [dropWhile_cons_of_neg]
    rw [h c rfl]
    exact Bool.false_ne_true

lemma isAlpha_spec (h : c.isAlpha = true) : isAscii c = true ∧ isC0OrSpace c = false := by
  have hbounds : (65 ≤ c.toNat ∧ c.toNat ≤ 90) ∨ (97 ≤ c.toNat ∧ c.toNat ≤ 122) := by
    have hcase : (c.isUpper || c.isLower) = true := h
    rcases Bool.or_eq_true_iff.1 hcase with hupper | hlower
    · exact .inl (of_decide_eq_true hupper)
    have hboth := Bool.and_eq_true_iff.1 hlower
    exact .inr ⟨of_decide_eq_true hboth.1, of_decide_eq_true hboth.2⟩
  simp only [isAscii, isC0OrSpace, decide_eq_true_eq, decide_eq_false_iff_not]
  omega

lemma isSchemeChar_spec (h : isSchemeChar c = true) :
    c ≠ ':' ∧ isUnsafe c = false ∧ isSchemeChar c.toLower = true
      ∧ c.toLower.toLower = c.toLower := by
  have hascii : isAscii c = true := by
    simp only [isSchemeChar, Bool.or_eq_true, beq_iff_eq] at h
    rcases h with ((h | rfl) | rfl) | rfl
    · simp only [Char.isAlphanum, Bool.or_eq_true] at h
      rcases h with h | h
      · exact (isAlpha_spec h).1
      have hbounds := PyText.bounds_of_isDigit h
      simp only [isAscii, decide_eq_true_eq]
      omega
    all_goals rfl
  have hall := ascii_forall (P := fun c => isSchemeChar c = true → c ≠ ':' ∧ isUnsafe c = false
    ∧ isSchemeChar c.toLower = true ∧ c.toLower.toLower = c.toLower) (by decide) hascii
  exact hall h

/-- A scheme in small letters. -/
structure IsLowerScheme (scheme : List Char) : Prop where
  head : ∃ c ∈ scheme.head?, c.isAlpha = true
  chars : ∀ c ∈ scheme, isSchemeChar c = true
  small : scheme.map Char.toLower = scheme

lemma IsLowerScheme.of_isScheme {text : List Char} (h : isScheme text = true) :
    IsLowerScheme (text.map Char.toLower) := by
  simp only [isScheme, Bool.and_eq_true, all_eq_true, Option.any_eq_true] at h
  obtain ⟨⟨c, hc, halpha⟩, hchars⟩ := h
  constructor
  · refine ⟨c.toLower, ?_, ?_⟩
    · rw [head?_map, hc]
      rfl
    exact ascii_forall (P := fun c => c.isAlpha = true → c.toLower.isAlpha = true) (by decide)
      (isAlpha_spec halpha).1 halpha
  · intro _ hd
    obtain ⟨e, he, rfl⟩ := mem_map.1 hd
    exact (isSchemeChar_spec (hchars e he)).2.2.1
  rw [map_map]
  exact map_congr_left (fun e he => (isSchemeChar_spec (hchars e he)).2.2.2)

lemma splitScheme_append {scheme rest : List Char} (h : IsLowerScheme scheme) :
    splitScheme (scheme ++ ':' :: rest) = (scheme, rest) := by
  have hcolon : ':' ∉ scheme := fun hmem => (isSchemeChar_spec (h.chars _ hmem)).1 rfl
  have hscheme : isScheme scheme = true := by
    obtain ⟨c, hc, halpha⟩ := h.head
    simp only [isScheme, Bool.and_eq_true, all_eq_true, Option.any_eq_true]
    exact ⟨⟨c, hc, halpha⟩, h.chars⟩
  unfold splitScheme
  simp only [partition_append hcolon, hscheme, Bool.and_self, h.small]
  rfl

lemma splitScheme_spec (url : List Char) : splitScheme url = ([], url)
      ∨ ∃ text rest, url = text ++ ':' :: rest ∧ isScheme text = true
          ∧ splitScheme url = (text.map Char.toLower, rest) := by
  rcases partition_spec ':' url with ⟨-, heq⟩ | ⟨before, after, hurl, -, heq⟩
  · left
    unfold splitScheme
    simp only [heq]
    rfl
  cases hscheme : isScheme before with
  | false =>
    left
    unfold splitScheme
    simp only [heq, hscheme]
    rfl
  | true =>
    refine .inr ⟨before, after, hurl, hscheme, ?_⟩
    unfold splitScheme
    simp only [heq, hscheme]
    rfl

lemma splitNetloc_append {path : List Char} (hnetloc : ∀ c ∈ netloc, endsNetloc c = false)
    (hpath : ∀ c ∈ path.head?, endsNetloc c = true) :
    splitNetloc ('/' :: '/' :: (netloc ++ path)) = (netloc, path) := by
  have hall : ∀ c ∈ netloc, (!endsNetloc c) = true := fun c hc => by rw [hnetloc c hc]; rfl
  have hstop : ∀ c ∈ path.head?, (!endsNetloc c) = false := fun c hc => by rw [hpath c hc]; rfl
  show (List.takeWhile _ _, List.dropWhile _ _) = _
  rw [takeWhile_append_of_pos hall, dropWhile_append_of_pos hall, dropWhile_eq_self hstop]
  cases path with
  | nil => simp
  | cons c =>
    rw [takeWhile_cons_of_neg (by rw [hstop c rfl]; exact Bool.false_ne_true), append_nil]

lemma splitNetloc_spec (url : List Char) : (splitNetloc url = ([], url))
      ∨ ((∀ c ∈ (splitNetloc url).1, endsNetloc c = false)
          ∧ (∀ c ∈ (splitNetloc url).2.head?, endsNetloc c = true)
          ∧ url = '/' :: '/' :: ((splitNetloc url).1 ++ (splitNetloc url).2)) := by
  unfold splitNetloc
  split
  · next rest =>
    refine .inr ⟨fun c hc => ?_, fun c hc => ?_, ?_⟩
    · simpa using mem_takeWhile_imp hc
    · have hhead := head?_dropWhile_not (fun c => !endsNetloc c) rest
      rw [Option.mem_def.1 hc] at hhead
      simpa using hhead
    rw [takeWhile_append_dropWhile]
  exact .inl rfl

lemma urlsplit_rebuilt {scheme netloc path : List Char} (hscheme : IsLowerScheme scheme)
    (hnetloc : ∀ c ∈ netloc, endsNetloc c = false ∧ isUnsafe c = false)
    (hslash : path.head? = some '/') (hpath : ∀ c ∈ path, c ≠ '?' ∧ c ≠ '#' ∧ isUnsafe c = false) :
    urlsplit u (scheme ++ ':' :: '/' :: '/' :: (netloc ++ path))
      = if bracketsOk netloc then
          if checkNetloc u netloc then .ok ⟨scheme, netloc, path, [], []⟩ else .error .normalization
        else .error .brackets := by
  have hfront : (scheme ++ ':' :: '/' :: '/' :: (netloc ++ path)).dropWhile isC0OrSpace
      = scheme ++ ':' :: '/' :: '/' :: (netloc ++ path) := by
    apply dropWhile_eq_self
    obtain ⟨c, hc, halpha⟩ := hscheme.head
    intro d hd
    rw [head?_append, Option.mem_def.1 hc] at hd
    have hcd : d = c := (Option.mem_some.1 hd).symm
    rw [hcd]
    exact (isAlpha_spec halpha).2
  have hclean : (scheme ++ ':' :: '/' :: '/' :: (netloc ++ path)).filter (fun c => !isUnsafe c)
      = scheme ++ ':' :: '/' :: '/' :: (netloc ++ path) := by
    rw [filter_eq_self]
    intro c hc
    have hsafe : isUnsafe c = false := by
      simp only [mem_append, mem_cons] at hc
      rcases hc with hc | rfl | rfl | rfl | hc | hc
      · exact (isSchemeChar_spec (hscheme.chars c hc)).2.1
      · rfl
      · rfl
      · rfl
      · exact (hnetloc c hc).2
      exact (hpath c hc).2.2
    rw [hsafe]
    rfl
  have hsplit : splitNetloc ('/' :: '/' :: (netloc ++ path)) = (netloc, path) := by
    refine splitNetloc_append (fun c hc => (hnetloc c hc).1) (fun c hc => ?_)
    rw [hslash] at hc
    rw [← Option.mem_some.1 hc]
    rfl
  have hfragment : partition '#' path = (path, false, []) :=
    partition_of_not_mem (fun hmem => (hpath _ hmem).2.1 rfl)
  have hquery : partition '?' path = (path, false, []) :=
    partition_of_not_mem (fun hmem => (hpath _ hmem).1 rfl)
  unfold urlsplit
  simp only [hfront, hclean, splitScheme_append hscheme, hsplit, hfragment, hquery]

/-- What a split that succeeds says. -/
structure Splits (s : SplitResult) : Prop where
  scheme : s.scheme = [] ∨ IsLowerScheme s.scheme
  netloc : ∀ c ∈ s.netloc, endsNetloc c = false ∧ isUnsafe c = false
  brackets : bracketsOk s.netloc = true
  harmless : ∀ c ∈ s.netloc, Harmless u c
  path : ∀ c ∈ s.path, c ≠ '?' ∧ c ≠ '#' ∧ isUnsafe c = false
  /-- After an authority a path begins with a slash. -/
  slash : s.netloc ≠ [] → s.path = [] ∨ s.path.head? = some '/'

lemma mem_partition {text : List Char} (h : c ∈ (partition sep text).1) : c ∈ text ∧ c ≠ sep :=
  ⟨(takeWhile_sublist _).mem h, by simpa using mem_takeWhile_imp h⟩

lemma head?_partition {text : List Char} (h : text.head? = some c) (hc : c ≠ sep) :
    (partition sep text).1.head? = some c := by
  cases text with
  | nil => exact absurd h.symm (Option.some_ne_none c)
  | cons d text =>
    have hd : d = c := Option.some.inj h
    show (List.takeWhile (· != sep) (d :: text)).head? = _
    rw [takeWhile_cons_of_pos (by simpa [hd] using hc), head?_cons, hd]

lemma partition_head_sep {text : List Char} (h : text.head? = some sep) :
    (partition sep text).1 = [] := by
  cases text with
  | nil => rfl
  | cons d text =>
    have hd : d = sep := Option.some.inj h
    show List.takeWhile (· != sep) (d :: text) = []
    rw [takeWhile_cons_of_neg (by simp [hd])]

lemma mem_splitScheme (h : c ∈ (splitScheme url).2) : c ∈ url := by
  rcases splitScheme_spec url with heq | ⟨text, rest, hurl, -, heq⟩
  · rw [heq] at h
    exact h
  rw [heq] at h
  rw [hurl]
  exact mem_append_right _ (mem_cons_of_mem _ h)

lemma mem_splitNetloc (h : c ∈ (splitNetloc url).1 ∨ c ∈ (splitNetloc url).2) : c ∈ url := by
  rcases splitNetloc_spec url with heq | ⟨-, -, hurl⟩
  · rw [heq] at h
    exact h.resolve_left not_mem_nil
  rw [hurl]
  exact mem_cons_of_mem _ (mem_cons_of_mem _ (mem_append.2 h))

/-- **What `urlsplit` returns.** -/
theorem urlsplit_splits {s : SplitResult} (h : urlsplit u url = .ok s) : Splits u s := by
  unfold urlsplit at h
  generalize hcleaned : (url.dropWhile isC0OrSpace).filter (fun c => !isUnsafe c) = cleaned at h
  have hsafe : ∀ c ∈ cleaned, isUnsafe c = false := by
    intro c hc
    rw [← hcleaned] at hc
    simpa using (mem_filter.1 hc).2
  simp only at h
  split at h
  case isFalse => cases h
  case isTrue hbrackets =>
    split at h
    case isFalse => cases h
    case isTrue hcheck =>
      have hpart : ∀ c, c ∈ (splitNetloc (splitScheme cleaned).2).1
          ∨ c ∈ (splitNetloc (splitScheme cleaned).2).2 → isUnsafe c = false :=
        fun c hc => hsafe c (mem_splitScheme (mem_splitNetloc hc))
      have hnetloc : ∀ c ∈ (splitNetloc (splitScheme cleaned).2).1, endsNetloc c = false := by
        rcases splitNetloc_spec (splitScheme cleaned).2 with heq | ⟨hends, -⟩
        · rw [heq]
          exact nofun
        exact hends
      have hslash : '/' ∉ (splitNetloc (splitScheme cleaned).2).1 := fun hmem =>
        absurd (hnetloc _ hmem) (by decide)
      rw [← Except.ok.inj h]
      constructor
      · rcases splitScheme_spec cleaned with heq | ⟨text, rest, -, hscheme, heq⟩
        · exact .inl (by rw [heq])
        exact .inr (by rw [heq]; exact IsLowerScheme.of_isScheme hscheme)
      · exact fun c hc => ⟨hnetloc c hc, hpart c (.inl hc)⟩
      · exact hbrackets
      · exact (checkNetloc_iff u hslash).1 hcheck
      · intro c hc
        have hquery := mem_partition hc
        have hfragment := mem_partition hquery.1
        exact ⟨hquery.2, hfragment.2, hpart c (.inr hfragment.1)⟩
      intro hne
      rcases splitNetloc_spec (splitScheme cleaned).2 with heq | ⟨-, hends, -⟩
      · exact absurd (by rw [heq]) hne
      show (partition '?' (partition '#' (splitNetloc (splitScheme cleaned).2).2).1).1 = [] ∨ _
      cases hhead : (splitNetloc (splitScheme cleaned).2).2.head? with
      | none =>
        rw [head?_eq_none_iff.1 hhead]
        exact .inl rfl
      | some c =>
        have hc := hends c hhead
        simp only [endsNetloc, Bool.or_eq_true, beq_iff_eq] at hc
        rcases hc with (rfl | rfl) | rfl
        · exact .inr (head?_partition (head?_partition hhead (by decide)) (by decide))
        · exact .inl (partition_head_sep (head?_partition hhead (by decide)))
        exact .inl (by rw [partition_head_sep hhead]; rfl)

lemma urlsplit_no_scheme {user rest : List Char} (huser : ∀ c ∈ user, c ≠ ':' ∧ c ≠ '/') :
    ∃ s, urlsplit u (user ++ '@' :: rest) = .ok s ∧ s.scheme = [] := by
  have hfront : (user ++ '@' :: rest).dropWhile isC0OrSpace
      = user.dropWhile isC0OrSpace ++ '@' :: rest := by
    rw [dropWhile_append]
    split
    · next hnil =>
      rw [isEmpty_iff.1 hnil]
      exact dropWhile_eq_self (fun c hc => by rw [← Option.mem_some.1 hc]; rfl)
    rfl
  generalize hcleaned : ((user ++ '@' :: rest).dropWhile isC0OrSpace).filter (fun c => !isUnsafe c)
    = cleaned
  have hshape : cleaned = (user.dropWhile isC0OrSpace).filter (fun c => !isUnsafe c)
      ++ '@' :: rest.filter (fun c => !isUnsafe c) := by
    rw [← hcleaned, hfront, filter_append]
    rfl
  generalize hfirst : (user.dropWhile isC0OrSpace).filter (fun c => !isUnsafe c) = first at hshape
  have hfirstMem : ∀ c ∈ first, c ≠ ':' ∧ c ≠ '/' := by
    intro c hc
    rw [← hfirst] at hc
    exact huser c ((dropWhile_sublist _).mem (mem_filter.1 hc).1)
  have hscheme : splitScheme cleaned = ([], cleaned) := by
    rcases splitScheme_spec cleaned with heq | ⟨text, tail, hurl, hscheme, -⟩
    · exact heq
    -- a scheme before the first colon would hold the `@`
    exfalso
    simp only [isScheme, Bool.and_eq_true, all_eq_true] at hscheme
    have hat : '@' ∈ text := by
      rw [hshape] at hurl
      rcases append_eq_append_iff.1 hurl with ⟨middle, hmiddle, htail⟩ | ⟨middle, hmiddle, htail⟩
      · cases middle with
        | nil => exact absurd (cons.inj htail).1 (by decide)
        | cons =>
          rw [hmiddle, (cons.inj htail).1]
          exact mem_append_right _ mem_cons_self
      cases middle with
      | nil => exact absurd (cons.inj htail).1 (by decide)
      | cons =>
        have hc : ':' ∈ first := by
          rw [hmiddle, (cons.inj htail).1]
          exact mem_append_right _ mem_cons_self
        exact absurd rfl (hfirstMem _ hc).1
    exact absurd (hscheme.2 _ hat) (by decide)
  have hnetloc : splitNetloc cleaned = ([], cleaned) := by
    rcases splitNetloc_spec cleaned with heq | ⟨-, -, hurl⟩
    · exact heq
    exfalso
    rw [hshape] at hurl
    cases first with
    | nil => exact absurd (cons.inj hurl).1 (by decide)
    | cons c => exact (hfirstMem c mem_cons_self).2 (cons.inj hurl).1
  refine ⟨⟨[], [], (partition '?' (partition '#' cleaned).1).1,
    (partition '?' (partition '#' cleaned).1).2.2, (partition '#' cleaned).2.2⟩, ?_, rfl⟩
  unfold urlsplit
  simp only [hcleaned, hscheme, hnetloc]
  rfl

end DeterminFlow.Library.UrlSplit
