import SchemeSyntax.Symbol.Core
import SchemeSyntax.Text.Numeral

namespace SchemeSyntax

inductive SymbolOrigin
  | core
  | generated
  | defined
  deriving DecidableEq, Repr

def SymbolOrigin.name : SymbolOrigin → Text
  | core => "core"
  | generated => "generated"
  | defined => "defined"

/-- Symbols of different origins differ even when they print alike. -/
inductive Symbol
  | core (core : CoreSymbol)
  | generated (id : Int)
  | defined (name : Text)
  deriving DecidableEq, Repr

namespace Symbol

def origin : Symbol → SymbolOrigin
  | core _ => .core
  | generated _ => .generated
  | defined _ => .defined

def core? : Symbol → Option CoreSymbol
  | core c => some c
  | _ => none

def generatedStem : Text := "$temp$id"

def name : Symbol → Text
  | core c => c.name
  | generated id => generatedStem ++ Numeral.ofInt id
  | defined name => name

def label (symbol : Symbol) : Text :=
  "<AstSymbol " ++ symbol.origin.name ++ " " ++ symbol.name ++ ">"

def countDistinct (symbols : List Symbol) : Nat := symbols.eraseDups.length

/-- The symbol that source text spells. -/
def ofSpelling (spelling : Text) : Symbol :=
  match CoreSymbol.lookup? spelling with
  | some c => core c
  | none => defined spelling

end Symbol

end SchemeSyntax
