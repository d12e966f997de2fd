import SchemeSyntax.Proofs.Form.Relocation
import SchemeSyntax.Proofs.Token.Lines
import SchemeSyntax.Proofs.Token.Position

namespace SchemeSyntax

section

variable (move : Location → Location)

def Subject.relocate : Subject → Subject
  | .token found => .token (found.relocate move)
  | .fragment found => .fragment (found.relocate move)
  | .item built => .item built

/-- A diagnostic that says the same of the same piece of text at another place. -/
def Diagnostic.relocate (diagnostic : Diagnostic) : Diagnostic :=
  { diagnostic with subject := diagnostic.subject.relocate move }

theorem Fault.diagnostic_relocate (fault : SourceFault) :
    (ofSource (fault.relocate move)).diagnostic = (ofSource fault).diagnostic.relocate move := by
  cases fault <;> rfl

end

theorem location_of_read {text fileName : Text} {fault : SourceFault}
    (failed : read text fileName = .error fault) :
    ∃ place, (Fault.ofSource fault).diagnostic.subject.location? = some place := by
  rcases TokenStream.mem_of_readForms failed with ⟨met, rfl, stored⟩ | ⟨wrong, rfl, member⟩
  · obtain ⟨_, place, located, _⟩ := Source.exact_of_fault_drain stored
    exact ⟨place, located⟩
  · obtain ⟨_, place, located, _⟩ := Source.exact_of_mem_drain member
    exact ⟨place, located⟩

theorem TokenStream.ofText_line {above fileName : Text} {tokens : List Token}
    (scanned : tokenize above fileName = .ok tokens) (rest : Text) :
    let below := (ofText rest fileName).relocate
      (Location.below (1 + above.count CodePoint.newline) (above.length + 1))
    ofText (above ++ CodePoint.newline :: rest) fileName = ⟨tokens ++ below.tokens, below.fault⟩ := by
  intro below
  rw [ofText, ofSource, Source.drain_lines scanned rest]
  rfl

/-- What stands on lines of its own is read on its own, behind what is above it. -/
theorem read_append_line {above fileName : Text} {nodes : List Node}
    (accepted : read above fileName = .ok nodes) (rest : Text) :
    read (above ++ CodePoint.newline :: rest) fileName =
      ((read rest fileName).mapError (SourceFault.relocate
        (Location.below (1 + above.count CodePoint.newline) (above.length + 1)))).map (nodes ++ ·) := by
  obtain ⟨sound, forms⟩ := TokenStream.forms_of_readForms accepted
  have scanned : tokenize above fileName = .ok (TokenStream.ofText above fileName).tokens :=
    tokenize_eq_ok_iff.mpr ⟨sound, rfl⟩
  have stream := TokenStream.ofText_line scanned rest
  rw [read, read, stream, TokenStream.readForms_append forms]
  exact congrArg (Except.map (nodes ++ ·))
    (congrArg Prod.fst (TokenStream.readForms_relocate _ (TokenStream.ofText rest fileName)))

/-- Reading goes line by line. Below lines that are read, a text has its own forms, and its own fault
    about the same piece of the same line, so many lines and characters further down. The tokens
    above stay as they are. -/
theorem read_lines {above fileName : Text} {nodes : List Node}
    (accepted : read above fileName = .ok nodes) (rest : Text) :
    (∀ others, read rest fileName = .ok others →
      read (above ++ CodePoint.newline :: rest) fileName = .ok (nodes ++ others)) ∧
    (∀ fault, read rest fileName = .error fault → ∃ below place,
      read (above ++ CodePoint.newline :: rest) fileName = .error below ∧
        (Fault.ofSource fault).diagnostic.subject.location? = some place ∧
        (Fault.ofSource below).diagnostic = (Fault.ofSource fault).diagnostic.relocate
          (Location.below (1 + above.count CodePoint.newline) (above.length + 1))) ∧
    ∃ tokens later, tokenize above fileName = .ok tokens ∧
      (Source.ofText (above ++ CodePoint.newline :: rest) fileName).drain.1 = tokens ++ later := by
  have whole := read_append_line accepted rest
  refine ⟨?_, ?_, ?_⟩
  · intro others read
    rw [whole, read]
    rfl
  · intro fault failed
    obtain ⟨place, located⟩ := location_of_read failed
    rw [failed] at whole
    exact ⟨_, place, whole, located, Fault.diagnostic_relocate _ fault⟩
  · have scanned : tokenize above fileName = .ok (TokenStream.ofText above fileName).tokens :=
      tokenize_eq_ok_iff.mpr ⟨(TokenStream.forms_of_readForms accepted).1, rfl⟩
    exact ⟨_, _, scanned, congrArg Prod.fst (Source.drain_lines scanned rest)⟩

theorem read_lines_commented :
    read ("'a ;c" ++ CodePoint.newline :: Text.ofString "b") "file" =
      .ok [.quoted (.leaf (.symbol (.defined "a"))), .leaf (.symbol (.defined "b"))] ∧
    ∃ fault below place, read "\n (b" "file" = .error fault ∧
      read ("'a ;c" ++ CodePoint.newline :: Text.ofString "\n (b") "file" = .error below ∧
        (Fault.ofSource fault).diagnostic.subject.location? = some place ∧
        (Fault.ofSource below).diagnostic =
          (Fault.ofSource fault).diagnostic.relocate (Location.below 1 6) := by
  have accepted : read "'a ;c" "file" = .ok [.quoted (.leaf (.symbol (.defined "a")))] := by
    have found : Text.lex "'a ;c" = ⟨[⟨.quote, "'"⟩, ⟨.symbol, "a"⟩], none⟩ := by decide +kernel
    exact read_of_lex found (.single (.quoted (.symbol _)))
  constructor
  · have found : Text.lex "b" = ⟨[⟨.symbol, "b"⟩], none⟩ := by decide +kernel
    exact (read_lines accepted "b").1 _ (read_of_lex found (.single (.symbol _)))
  · have refused : (read "\n (b" "file").isOk = false := by decide +kernel
    cases failed : read "\n (b" "file" with
    | ok nodes =>
      rw [failed] at refused
      cases refused
    | error fault =>
      obtain ⟨below, place, failedBelow, located, same⟩ :=
        (read_lines accepted "\n (b").2.1 fault failed
      exact ⟨fault, below, place, rfl, failedBelow, located, same⟩

end SchemeSyntax
