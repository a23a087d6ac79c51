import BoundTree.Text.IdentifierChars

/-!
Identifiers and paths of declarations. A raw identifier carries a mark and may be spelled like a keyword.
Words are told from keywords only where it matters, since an annotation may hold any word.
-/
namespace BoundTree.Derive

/-- An identifier as it is written, a raw one with its mark. -/
structure Ident where
  text : String
  deriving DecidableEq, Repr

namespace Ident

/-- The keywords that stand for places. -/
def placeKeywords : List String := ["super", "self", "Self", "crate"]

def keywords : List String :=
  ["abstract", "as", "async", "await", "become", "box", "break", "const", "continue", "do", "dyn",
    "else", "enum", "extern", "false", "final", "fn", "for", "if", "impl", "in", "let", "loop",
    "macro", "match", "mod", "move", "mut", "override", "priv", "pub", "ref", "return", "static",
    "struct", "trait", "true", "try", "type", "typeof", "unsafe", "unsized", "use", "virtual",
    "where", "while", "yield"]

/-- A letter or underscore, and then letters, digits and underscores. -/
def isWord : List Char → Bool
  | [] => false
  | c :: rest => Text.startsIdentifier c && rest.all Text.continuesIdentifier

/-- The word behind the mark of a raw identifier. -/
def rawWord? : List Char → Option (List Char)
  | 'r' :: '#' :: word => some word
  | _ => none

/-- Without the mark. -/
def bare (i : Ident) : String := ((rawWord? i.text.toList).map String.ofList).getD i.text

def isPlaceKeyword (i : Ident) : Bool := i.text ∈ placeKeywords

/-- The words that name nothing unless they are spelled raw. -/
def isKeyword (i : Ident) : Bool := i.text = "_" || i.text ∈ keywords || i.isPlaceKeyword

/-- Any word, keywords among them. Places and the lone underscore cannot be spelled raw. -/
def ofWord? (s : String) : Option Ident :=
  match rawWord? s.toList with
  | some word =>
    if isWord word && word ≠ ['_'] && String.ofList word ∉ placeKeywords then some ⟨s⟩ else none
  | none => if isWord s.toList then some ⟨s⟩ else none

/-- A word that is no keyword. -/
def ofString? (s : String) : Option Ident := (ofWord? s).filter fun i => !i.isKeyword

/-- A name that may be left open by an underscore. -/
def orUnderscore? (s : String) : Option Ident := if s = "_" then some ⟨s⟩ else ofString? s

/-- A word that can stand for a place or name something in it. -/
def namesPlace (i : Ident) : Bool := i.isPlaceKeyword || !i.isKeyword

/-- What may stand in a path of the code. One keyword is let through beside the places. -/
def isSegment (i : Ident) : Bool := i.namesPlace || i.text = "try"

end Ident

/-- Segments joined by double colons; a global path starts with them. -/
structure Path where
  isGlobal : Bool
  segments : List Ident
  deriving DecidableEq, Repr

namespace Path

/-- The pieces between double colons. -/
def split : List Char → List (List Char)
  | [] => [[]]
  | ':' :: ':' :: rest => [] :: split rest
  | c :: rest =>
    match split rest with
    | piece :: pieces => (c :: piece) :: pieces
    | [] => [[c]]

/-- A path of any words. -/
def ofString? (s : String) : Option Path :=
  let ofPieces (isGlobal : Bool) (pieces : List (List Char)) : Option Path := do
    return ⟨isGlobal, ← pieces.mapM fun p => Ident.ofWord? (String.ofList p)⟩
  match split s.toList with
  | [] :: piece :: pieces => ofPieces true (piece :: pieces)
  | pieces => ofPieces false pieces

/-- The identifier of a path that is nothing else. -/
def ident? (p : Path) : Option Ident :=
  match p with
  | ⟨false, [i]⟩ => some i
  | _ => none

/-- The path is the given word and nothing else. -/
def isWord (p : Path) (word : String) : Bool := p.ident?.any fun i => i.text == word

end Path
end BoundTree.Derive
