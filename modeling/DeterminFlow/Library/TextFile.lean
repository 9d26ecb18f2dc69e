/-
  Library.TextFile
  **TEXT FILES AS PYTHON READS AND WRITES THEM.**

  `open(path, encoding="utf-8", errors="replace")` decodes the bytes, puts one
  U+FFFD for each part that is no UTF-8 (a maximal one, as the Unicode standard
  has it), and turns CR LF and CR into LF.  `open(path, "w", newline="")` encodes
  the text as it is.

  The file is read in pieces, each with the bytes it stands for, so that a text
  keeps its way back to the file.
-/
import Mathlib.Data.List.Basic

namespace DeterminFlow.Library.TextFile

open List

/-! ## Reading -/

def decodeFirst? (bytes : List UInt8) : Option Char := bytes.toByteArray.utf8DecodeChar? 0

/-- A part of a file. -/
inductive Piece where
  /-- A character other than CR. -/
  | char (c : Char)
  /-- CR, with or without LF, read as LF. -/
  | carriage (withLf : Bool)
  /-- Bytes that are no UTF-8, read as U+FFFD. -/
  | junk (bytes : List UInt8)
  deriving DecidableEq

def Piece.text : Piece → Char
  | .char c => c
  | .carriage _ => '\n'
  | .junk _ => '\uFFFD'

def Piece.bytes : Piece → List UInt8
  | .char c => String.utf8EncodeChar c
  | .carriage withLf => if withLf then [0x0D, 0x0A] else [0x0D]
  | .junk bytes => bytes

def isContinuation (b : UInt8) : Bool := decide (0x80 ≤ b) && decide (b ≤ 0xBF)

def isSecond (lead b : UInt8) : Bool :=
  if lead = 0xE0 then decide (0xA0 ≤ b) && decide (b ≤ 0xBF)
  else if lead = 0xED then decide (0x80 ≤ b) && decide (b ≤ 0x9F)
  else if lead = 0xF0 then decide (0x90 ≤ b) && decide (b ≤ 0xBF)
  else if lead = 0xF4 then decide (0x80 ≤ b) && decide (b ≤ 0x8F)
  else decide (0xE0 ≤ lead) && decide (lead ≤ 0xF4) && isContinuation b

def junkTail (lead : UInt8) : List UInt8 → List UInt8
  | second :: rest =>
    if isSecond lead second then
      match rest with
      | third :: _ =>
        if 0xF0 ≤ lead ∧ isContinuation third = true then [second, third] else [second]
      | [] => [second]
    else []
  | [] => []

def firstPiece (lead : UInt8) (rest : List UInt8) : Piece :=
  if lead = 0x0D then .carriage (decide (rest.head? = some 0x0A))
  else
    match decodeFirst? (lead :: rest) with
    | some c => .char c
    | none => .junk (lead :: junkTail lead rest)

def piecesFrom : Nat → List UInt8 → List Piece
  | 0, _ => []
  | _ + 1, [] => []
  | fuel + 1, lead :: rest =>
    let piece := firstPiece lead rest
    piece :: piecesFrom fuel ((lead :: rest).drop piece.bytes.length)

def pieces (file : List UInt8) : List Piece := piecesFrom file.length file

def readText (file : List UInt8) : List Char := (pieces file).map Piece.text

def encode (text : List Char) : List UInt8 := text.flatMap String.utf8EncodeChar

def bytesOf (ps : List Piece) : List UInt8 := ps.flatMap Piece.bytes

/-! ## The way back -/

lemma decodeFirst?_eq_some {bytes : List UInt8} {c : Char} :
    decodeFirst? bytes = some c ↔ String.utf8EncodeChar c <+: bytes := by
  constructor
  · intro h
    obtain ⟨tail, htail⟩ := ByteArray.exists_of_utf8DecodeChar?_eq_some h
    refine ⟨tail.data.toList, toByteArray_inj.1 ?_⟩
    rw [toByteArray_append, htail]
    congr 1
    apply ByteArray.ext
    rw [data_toByteArray, Array.toArray_toList]
  rintro ⟨tail, rfl⟩
  rw [decodeFirst?, toByteArray_append]
  exact ByteArray.utf8DecodeChar?_utf8EncodeChar_append

lemma junkTail_prefix (lead : UInt8) (rest : List UInt8) : junkTail lead rest <+: rest := by
  cases rest with
  | nil => exact prefix_refl []
  | cons second rest =>
    unfold junkTail
    simp only
    split
    · cases rest with
      | nil => exact prefix_refl [second]
      | cons third rest =>
        simp only
        split
        · exact ⟨rest, rfl⟩
        exact ⟨third :: rest, rfl⟩
    exact nil_prefix

lemma firstPiece_bytes (lead : UInt8) (rest : List UInt8) :
    (firstPiece lead rest).bytes <+: lead :: rest ∧ 0 < (firstPiece lead rest).bytes.length := by
  rw [firstPiece]
  split
  case isTrue hcr =>
    rw [Piece.bytes, hcr]
    cases hlf : decide (rest.head? = some 0x0A) with
    | false => exact ⟨⟨rest, rfl⟩, by decide⟩
    | true =>
      cases rest with
      | nil => cases hlf
      | cons second rest =>
        obtain rfl := Option.some.inj (of_decide_eq_true hlf)
        exact ⟨⟨rest, rfl⟩, by decide⟩
  case isFalse =>
    split
    case h_1 c hc =>
      refine ⟨decodeFirst?_eq_some.1 hc, ?_⟩
      show 0 < (String.utf8EncodeChar c).length
      rw [String.length_utf8EncodeChar]
      exact c.utf8Size_pos
    case h_2 =>
      exact ⟨cons_prefix_cons.2 ⟨rfl, junkTail_prefix lead rest⟩, Nat.succ_pos _⟩

variable {fuel : Nat} {file : List UInt8} {ps : List Piece}

lemma bytes_piecesFrom (h : file.length ≤ fuel) : bytesOf (piecesFrom fuel file) = file := by
  induction fuel generalizing file with
  | zero =>
    obtain rfl := length_eq_zero_iff.1 (Nat.le_zero.1 h)
    rfl
  | succ fuel ih =>
    cases file with
    | nil => rfl
    | cons lead rest =>
      obtain ⟨hbytes, _⟩ := firstPiece_bytes lead rest
      have hshort : ((lead :: rest).drop (firstPiece lead rest).bytes.length).length ≤ fuel := by
        rw [length_drop]
        omega
      show (firstPiece lead rest).bytes
        ++ bytesOf (piecesFrom fuel ((lead :: rest).drop (firstPiece lead rest).bytes.length)) = _
      rw [ih hshort]
      obtain ⟨_, htail⟩ := hbytes
      rw [← htail, drop_left]

def Piece.IsChar (piece : Piece) : Prop := ∃ c, piece = .char c

lemma encode_of_isChar (h : ∀ piece ∈ ps, piece.IsChar) :
    encode (ps.map Piece.text) = bytesOf ps := by
  induction ps with
  | nil => rfl
  | cons piece rest ih =>
    obtain ⟨c, rfl⟩ := h piece mem_cons_self
    show String.utf8EncodeChar c ++ encode (rest.map Piece.text)
      = String.utf8EncodeChar c ++ bytesOf rest
    rw [ih (fun p hp => h p (mem_cons_of_mem _ hp))]

lemma isChar_of_encode {post : List Piece} (hfuel : file.length ≤ fuel)
    (hfile : piecesFrom fuel file = ps ++ post) (h : encode (ps.map Piece.text) = bytesOf ps) :
    ∀ piece ∈ ps, piece.IsChar := by
  induction ps generalizing fuel file with
  | nil => exact nofun
  | cons piece rest ih =>
    have hbytes := bytes_piecesFrom hfuel
    cases fuel with
    | zero => cases hfile
    | succ fuel =>
      cases file with
      | nil => cases hfile
      | cons lead tail =>
        obtain ⟨hpiece, hrest⟩ := cons.inj hfile
        have hshort : ((lead :: tail).drop piece.bytes.length).length ≤ fuel := by
          have hpos := (firstPiece_bytes lead tail).2
          rw [hpiece] at hpos
          rw [length_drop]
          omega
        rw [hpiece] at hrest
        have heq : String.utf8EncodeChar piece.text ++ encode (rest.map Piece.text)
            = piece.bytes ++ bytesOf rest := h
        have hchar : piece.IsChar := by
          rw [firstPiece] at hpiece
          split at hpiece
          case isTrue =>
            -- a line feed is written where a carriage return stood
            subst hpiece
            rw [Piece.bytes] at heq
            split at heq
            all_goals cases heq
          case isFalse =>
            split at hpiece
            case h_1 c _ => exact ⟨c, hpiece.symm⟩
            case h_2 hnone =>
              -- the bytes of U+FFFD would have been read as U+FFFD
              subst hpiece
              have hpre : String.utf8EncodeChar '\uFFFD' <+: lead :: tail := by
                rw [← hbytes, hfile]
                refine ⟨encode (rest.map Piece.text) ++ bytesOf post, ?_⟩
                show _ = bytesOf (Piece.junk (lead :: junkTail lead tail) :: rest ++ post)
                rw [← append_assoc]
                show _ = List.flatMap _ _
                rw [flatMap_append]
                exact congrArg (· ++ bytesOf post) heq
              rw [decodeFirst?_eq_some.2 hpre] at hnone
              cases hnone
        obtain ⟨c, rfl⟩ := hchar
        have hlater := ih hshort hrest (append_cancel_left heq)
        intro p hp
        rcases mem_cons.1 hp with rfl | hp
        · exact ⟨c, rfl⟩
        exact hlater p hp

lemma encode_eq_bytes_iff (hps : ps <:+: pieces file) :
    encode (ps.map Piece.text) = bytesOf ps ↔ ∀ piece ∈ ps, piece.IsChar := by
  constructor
  · obtain ⟨pre, post, hfile⟩ := hps
    -- the pieces from the run on are those of what is left of the file
    have hfrom : ∀ (pre : List Piece) {fuel : Nat} {file : List UInt8}, file.length ≤ fuel →
        piecesFrom fuel file = pre ++ ps ++ post →
        encode (ps.map Piece.text) = bytesOf ps → ∀ piece ∈ ps, piece.IsChar := by
      intro pre
      induction pre with
      | nil => exact fun hfuel hfile => isChar_of_encode hfuel hfile
      | cons piece pre ih =>
        intro fuel file hfuel hfile
        cases fuel with
        | zero => cases hfile
        | succ =>
          cases file with
          | nil => cases hfile
          | cons lead tail =>
            obtain ⟨-, hrest⟩ := cons.inj hfile
            have hpos := (firstPiece_bytes lead tail).2
            exact ih (by rw [length_drop]; omega) hrest
    exact hfrom pre (Nat.le_refl _) hfile.symm
  exact encode_of_isChar

end DeterminFlow.Library.TextFile
