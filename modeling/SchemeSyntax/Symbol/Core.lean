import SchemeSyntax.Text.CodePoint

namespace SchemeSyntax

/-- The names that a compiler recognizes by structure. -/
inductive CoreSymbol
  | andForm
  | beginForm
  | orForm
  | letForm
  | letrecForm
  | letStarForm
  | lambdaForm
  | ifForm
  | setForm
  | errorForm
  | quoteForm
  | beginProgram
  | unspecified
  deriving DecidableEq, Repr

namespace CoreSymbol

def name : CoreSymbol → Text
  | andForm => "and"
  | beginForm => "begin"
  | orForm => "or"
  | letForm => "let"
  | letrecForm => "letrec"
  | letStarForm => "let*"
  | lambdaForm => "lambda"
  | ifForm => "if"
  | setForm => "set"
  | errorForm => "error"
  | quoteForm => "quote"
  | beginProgram => "$begin-program"
  | unspecified => "$gen_unspecified"

def all : List CoreSymbol :=
  [andForm, beginForm, orForm, letForm, letrecForm, letStarForm, lambdaForm, ifForm, setForm,
    errorForm, quoteForm, beginProgram, unspecified]

/-- Source text cannot name an internal symbol. -/
def isInternal (core : CoreSymbol) : Bool := core.name.head? = some (CodePoint.ofChar '$')

def ofName? (name : Text) : Option CoreSymbol := all.find? fun core => core.name = name

def lookup? (name : Text) : Option CoreSymbol := (ofName? name).filter fun core => !core.isInternal

end CoreSymbol

end SchemeSyntax
