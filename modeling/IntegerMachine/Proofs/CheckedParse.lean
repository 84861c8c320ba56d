import IntegerMachine.Proofs.ParseTree

/-!
# Parsing with checked accesses

The parser takes lines apart by their shape and has the open block at hand wherever it needs one, so that it cannot ask
for a token or a block that is not there. Here is a parser that can. It keeps what is open in registers that may be empty,
goes through a line by index, and is stopped by an access to a token outside of the line or to an empty register.

It is never stopped, and gives the same tree and the same errors. What carries the proof is that the registers hold what
is being read: the block register is filled in a body and among declarations, wherever the line before has left off.
-/
namespace IntegerMachine

namespace Source

namespace Checked

/-- An access to something that is not there. -/
inductive Misuse where
  | noToken (index length : Nat)
  | noBlock
  | noDeclarations
  deriving DecidableEq, Repr

/-- What is being read. -/
inductive Mode where
  | top
  | constants
  | body
  | declarations
  deriving DecidableEq, Repr

/-- What was read so far. The last two registers are looked at in a body and among declarations. -/
structure Registers where
  tree : Tree
  mode : Mode := .top
  hasConstants : Bool := false
  block : Option Block := none
  declared : Option VarBlock := none
  deriving DecidableEq, Repr

/-- What was read after a line and the errors of the line, or the access that has stopped the parser. -/
abbrev Reading := Except Misuse (Registers × List SyntaxError)

/-- The token of a line at an index. -/
def tokenAt (tokens : List Token) (index : Nat) : Except Misuse Token :=
  match tokens[index]? with
  | some token => .ok token
  | none => .error (.noToken index tokens.length)

/-- The block that is open. -/
def Registers.openBlock (registers : Registers) : Except Misuse Block :=
  match registers.block with
  | some block => .ok block
  | none => .error .noBlock

/-- The declarations that are open. -/
def Registers.openDeclarations (registers : Registers) : Except Misuse VarBlock :=
  match registers.declared with
  | some declared => .ok declared
  | none => .error .noDeclarations

/-- The complaint about tokens from an index on, if there are any. -/
def surplusFrom (line : List Token) (index : Nat) : Except Misuse (List SyntaxError) :=
  if index < line.length then do
    let token ← tokenAt line index
    return [token.complain (.unexpected token.text)]
  else return []

/-- The complaint about parameters that are not closed, at the last token of the line. -/
def unclosed (line : List Token) : Except Misuse (List SyntaxError) := do
  let last ← tokenAt line (line.length - 1)
  return [last.complain .openParameters]

/-- The parameters from an index on, behind those that were read before. -/
def readParams (line : List Token) (index : Nat) (params : List Ident) :
    Except Misuse (List Ident × List SyntaxError) :=
  if index < line.length then do
    let token ← tokenAt line index
    if token.kind = .mark ')' then
      let errors ← surplusFrom line (index + 1)
      return (params, errors)
    else if params.isEmpty then
      if token.isNameWord then readParams line (index + 1) (params ++ [token.ident])
      else return (params, [token.complain (.badParameter token.text)])
    else if token.kind = .mark ',' then
      if index + 1 < line.length then
        let name ← tokenAt line (index + 1)
        if name.isNameWord then readParams line (index + 2) (params ++ [name.ident])
        else return (params, [name.complain (.badParameter name.text)])
      else
        let errors ← unclosed line
        return (params, errors)
    else return (params, [token.complain (.noSeparator token.text)])
  else do
    let errors ← unclosed line
    return (params, errors)
termination_by line.length - index

/-- The method that a line opens. -/
def readMethod (line : List Token) : Except Misuse (Block × List SyntaxError) := do
  let directive ← tokenAt line 0
  let block : Block := { position := directive.position, name := [], isMain := false }
  if line.length < 2 then return (block, [directive.complain .noMethodName])
  else
    let name ← tokenAt line 1
    if !isName name.text then return (block, [directive.complain .noMethodName])
    else if line.length = 2 then return ({ block with name := name.text }, [])
    else
      let opening ← tokenAt line 2
      if opening.kind = .mark '(' then
        let (params, errors) ← readParams line 3 []
        return ({ block with name := name.text, params }, errors)
      else return ({ block with name := name.text }, [opening.complain (.noParenthesis opening.text)])

/-- A line between blocks. -/
def readTop (registers : Registers) (line : List Token) : Reading := do
  let first ← tokenAt line 0
  match first.directive? with
  | none => return (registers, [first.complain (.outsideBlock first.text)])
  | some directive =>
    if directive = (".constant" : Text) then
      let more ← surplusFrom line 1
      return ({ registers with mode := .constants, hasConstants := true },
        (if registers.hasConstants then [first.complain .secondConstants] else []) ++ more)
    else if directive = (".main" : Text) then
      let more ← surplusFrom line 1
      return ({ registers with
          mode := .body
          block := some { position := first.position, name := mainName, isMain := true } },
        (match registers.tree.main with
          | some main => [first.complain (.secondMain main.position)]
          | none => []) ++ more)
    else if directive = (".method" : Text) then
      let (block, errors) ← readMethod line
      return ({ registers with mode := .body, block := some block }, errors)
    else return (registers, [first.complain (.outsideBlock first.text)])

/-- A line within the block of constants. -/
def readConstant (registers : Registers) (line : List Token) : Reading := do
  let first ← tokenAt line 0
  match first.directive? with
  | some directive =>
    if directive = (".end-constant" : Text) then
      let more ← surplusFrom line 1
      return ({ registers with mode := .top }, more)
    else return (registers, [first.complain (.amongConstants first.text)])
  | none =>
    if !isName first.text then return (registers, [first.complain (.badConstantName first.text)])
    else if line.length < 2 then return (registers, [first.complain (.noValue first.text)])
    else
      let value ← tokenAt line 1
      if !value.isLiteral then return (registers, [value.complain (.badValue value.text)])
      else if 2 < line.length then
        let more ← surplusFrom line 2
        return (registers, more)
      else
        let constant : ConstantDecl := { position := first.position, name := first.text, value := value.text }
        let tree := registers.tree
        return ({ registers with tree := { tree with constants := tree.constants ++ [constant] } }, [])

/-- The tokens of a line of declarations, one after the other. -/
def readVars (line : List Token) (registers : Registers) : List Token → Reading
  | [] => return (registers, [])
  | token :: rest =>
    match token.directive? with
    | some directive =>
      if directive = (".end-var" : Text) then do
        let block ← registers.openBlock
        let declared ← registers.openDeclarations
        let more ← surplusFrom line 1
        return ({ registers with mode := .body, block := some { block with vars := block.vars ++ [declared] } }, more)
      else do
        let (registers, errors) ← readVars line registers rest
        return (registers, token.complain (.amongVariables token.text) :: errors)
    | none =>
      if token.kind = .mark ',' then readVars line registers rest
      else if token.isNameWord then do
        let declared ← registers.openDeclarations
        readVars line
          { registers with declared := some { declared with names := declared.names ++ [token.ident] } } rest
      else do
        let (registers, errors) ← readVars line registers rest
        return (registers, token.complain (.badVariable token.text) :: errors)

/-- Adds a statement to the open block. -/
def Registers.addStatement (registers : Registers) (statement : Statement) : Except Misuse Registers := do
  let block ← registers.openBlock
  return { registers with block := some (Source.addStatement block statement) }

/-- An instruction at the end of a line. -/
def readInstruction (registers : Registers) (first : Token) (rest : List Token) : Reading :=
  match parseInstruction first rest with
  | .error error => return (registers, [error])
  | .ok statement => do
    let registers ← registers.addStatement statement
    return (registers, [])

/-- A line of a body that starts with a directive. -/
def readDirective (registers : Registers) (directive : Text) (first : Token) (line : List Token) : Reading :=
  if directive = (".var" : Text) then do
    let more ← surplusFrom line 1
    return ({ registers with mode := .declarations, declared := some { position := first.position } }, more)
  else if directive = (".end-main" : Text) ∨ directive = (".end-method" : Text) then do
    let block ← registers.openBlock
    if block.isMain = decide (directive = (".end-main" : Text)) then
      let more ← surplusFrom line 1
      return ({ registers with mode := .top, tree := closeBlock registers.tree block, block := none }, more)
    else return (registers, [first.complain (.unexpected first.text)])
  else return (registers, [first.complain (.unexpected first.text)])

/-- A line of a body. Behind a label the rest of the line is read in the same way. -/
def readStatement (registers : Registers) (line : List Token) : Reading := do
  let first ← tokenAt line 0
  match first.directive? with
  | some directive => readDirective registers directive first line
  | none =>
    if 2 ≤ line.length then
      let second ← tokenAt line 1
      if second.kind = .mark ':' then
        if isName first.text then
          let registers ← registers.addStatement (.label first.position first.text)
          if 2 < line.length then readStatement registers (line.drop 2)
          else return (registers, [])
        else return (registers, [first.complain (.badLabel first.text)])
      else readInstruction registers first (line.drop 1)
    else readInstruction registers first (line.drop 1)
termination_by line.length
decreasing_by
  rw [List.length_drop]
  omega

/-- What was read after a line. -/
def readLine (registers : Registers) (line : List Token) : Reading :=
  match registers.mode with
  | .top => readTop registers line
  | .constants => readConstant registers line
  | .body => readStatement registers line
  | .declarations => readVars line registers line

/-- What was read after all lines, and all errors up to there. -/
def readLines (registers : Registers) (complaints : List SyntaxError) : List TokenLine → Reading
  | [] => return (registers, complaints)
  | line :: rest => do
    let (next, errors) ← readLine registers line.tokens
    let (last, more) ← readLines next complaints rest
    return (last, line.complaints ++ errors ++ more)

/-- The complaints about what is missing at the end. -/
def finish (registers : Registers) (stop : Position) : Except Misuse (List SyntaxError) :=
  match registers.mode with
  | .top => return if registers.tree.main.isNone then [{ position := stop, complaint := .noMain }] else []
  | .constants => return [{ position := stop, complaint := .openConstants }]
  | .body => do
    let block ← registers.openBlock
    return [Source.openBlock block]
  | .declarations => do
    let declared ← registers.openDeclarations
    let block ← registers.openBlock
    return [{ position := declared.position, complaint := .openVariables }, Source.openBlock block]

/-- The tree of a source and its syntax errors. -/
def parse (file : Text) (source : Source) : Except Misuse (Tree × List SyntaxError) := do
  let (registers, errors) ← readLines { tree := { file } } source.lines.complaints source.lines.lines
  let more ← finish registers source.stop
  return (registers.tree, (errors ++ more).take SyntaxError.limit)

/-! ## The registers hold what is being read -/

/-- What is open is in its register. -/
def Registers.Holds (registers : Registers) : Part → Prop
  | .top => registers.mode = .top
  | .constants => registers.mode = .constants
  | .body block => registers.mode = .body ∧ registers.block = some block
  | .variables block declared =>
    registers.mode = .declarations ∧ registers.block = some block ∧ registers.declared = some declared

/-- Registers are those of a parser that has read the given progress. -/
structure Registers.Represents (registers : Registers) (progress : Progress) : Prop where
  tree : registers.tree = progress.tree
  hasConstants : registers.hasConstants = progress.hasConstants
  part : registers.Holds progress.part

/-- A reading that was not stopped, with the same errors and with registers for what was read. -/
def Agrees (reading : Reading) (parsed : Parsed) : Prop :=
  ∃ registers, reading = .ok (registers, parsed.2) ∧ registers.Represents parsed.1

/-- A computation goes on with what an earlier one gives. -/
theorem ok_bind {First Second : Type} (value : First) (next : First → Except Misuse Second) :
    (Except.ok value >>= next) = next value := rfl

/-- The first of the tokens from an index on is complained about, if there is one. The access to it is guarded by the
length of the line. -/
theorem surplus_from_eq (line : List Token) (index : Nat) :
    surplusFrom line index = .ok (Token.surplus (line.drop index)) := by
  unfold surplusFrom
  by_cases inside : index < line.length
  · rw [if_pos inside, tokenAt, List.getElem?_eq_getElem inside, List.drop_eq_getElem_cons inside]
    rfl
  · rw [if_neg inside, List.drop_eq_nil_of_le (Nat.le_of_not_lt inside)]
    rfl

/-- Parameters that are not closed are complained about at the last token. The index is computed by a subtraction, and
it is right because the line is not empty. -/
theorem unclosed_eq {line : List Token} {last : Token} (isLast : line.getLast? = some last) :
    unclosed line = .ok [last.complain .openParameters] := by
  rw [List.getLast?_eq_getElem?] at isLast
  unfold unclosed tokenAt
  rw [isLast]
  rfl

section Params

variable {line : List Token}

/-- The token that is reached by an index is the first of those from there on. This is how the parser that goes by
index is compared with the one that takes lists apart. -/
theorem token_at_drop {index : Nat} {token : Token} {rest : List Token} (split : line.drop index = token :: rest) :
    tokenAt line index = .ok token ∧ index < line.length ∧ line.drop (index + 1) = rest := by
  have inside : index < line.length := by
    rw [← Nat.not_le, ← List.drop_eq_nil_iff, split]
    exact List.cons_ne_nil token rest
  refine ⟨?_, inside, ?_⟩
  · rw [tokenAt, ← List.head?_drop, split]
    rfl
  · rw [← List.drop_drop, split]
    rfl

/-- The parameters from an index on are those of the tokens that are left there. The induction follows the parser of
lists; the index and the parameters so far are carried along. -/
theorem read_params_eq (last : Token) (first : Bool) (tokens : List Token) (index : Nat) (params : List Ident)
    (remaining : line.drop index = tokens) (isFirst : params.isEmpty = first)
    (isLast : (last :: tokens).getLast? = line.getLast?) :
    readParams line index params =
      .ok (params ++ (parseParams last first tokens).1, (parseParams last first tokens).2) := by
  rw [readParams]
  fun_induction parseParams last first tokens generalizing index params with
  | case1 last first =>
    rw [if_neg (Nat.not_lt.mpr (List.drop_eq_nil_iff.mp remaining)), unclosed_eq isLast.symm, ok_bind, List.append_nil]
    rfl
  | case2 last first token rest closes =>
    obtain ⟨found, inside, behind⟩ := token_at_drop remaining
    rw [if_pos inside, found, ok_bind, if_pos closes, surplus_from_eq, behind, ok_bind, List.append_nil]
    rfl
  | case3 last token rest closes named names errors parsed ih =>
    obtain ⟨found, inside, behind⟩ := token_at_drop remaining
    have later := ih (index + 1) (params ++ [token.ident]) behind (by simp) isLast
    rw [if_pos inside, found, ok_bind, if_neg closes, if_pos isFirst, if_pos named, readParams, later, parsed,
      List.append_assoc]
    rfl
  | case4 last token rest closes unnamed =>
    obtain ⟨found, inside, behind⟩ := token_at_drop remaining
    rw [if_pos inside, found, ok_bind, if_neg closes, if_pos isFirst, if_neg unnamed, List.append_nil]
    rfl
  | case5 last first token closes notFirst separates =>
    obtain ⟨found, inside, behind⟩ := token_at_drop remaining
    have outside : ¬ index + 1 < line.length := Nat.not_lt.mpr (List.drop_eq_nil_iff.mp behind)
    rw [← isFirst] at notFirst
    rw [if_pos inside, found, ok_bind, if_neg closes, if_neg notFirst, if_pos separates, if_neg outside,
      unclosed_eq isLast.symm, ok_bind, List.append_nil]
    rfl
  | case6 last first token closes notFirst separates name rest named names errors parsed ih =>
    obtain ⟨found, inside, behind⟩ := token_at_drop remaining
    obtain ⟨foundName, insideName, behindName⟩ := token_at_drop behind
    rw [← isFirst] at notFirst
    have later := ih (index + 2) (params ++ [name.ident]) behindName (by simp) isLast
    rw [if_pos inside, found, ok_bind, if_neg closes, if_neg notFirst, if_pos separates, if_pos insideName, foundName,
      ok_bind, if_pos named, readParams, later, parsed, List.append_assoc]
    rfl
  | case7 last first token closes notFirst separates name rest unnamed =>
    obtain ⟨found, inside, behind⟩ := token_at_drop remaining
    obtain ⟨foundName, insideName, behindName⟩ := token_at_drop behind
    rw [← isFirst] at notFirst
    rw [if_pos inside, found, ok_bind, if_neg closes, if_neg notFirst, if_pos separates, if_pos insideName, foundName,
      ok_bind, if_neg unnamed, List.append_nil]
    rfl
  | case8 last first token rest closes notFirst noSeparator =>
    obtain ⟨found, inside, behind⟩ := token_at_drop remaining
    rw [← isFirst] at notFirst
    rw [if_pos inside, found, ok_bind, if_neg closes, if_neg notFirst, if_neg noSeparator, List.append_nil]
    rfl

end Params

/-- A method is read from a line that is there. Its second and third tokens are asked for by index only behind a test
that the line is long enough. -/
theorem read_method_eq (directive : Token) (rest : List Token) :
    readMethod (directive :: rest) = .ok (parseMethod directive rest) := by
  unfold readMethod parseMethod
  rcases rest with _ | ⟨name, _ | ⟨opening, rest⟩⟩
  · rfl
  · by_cases named : isName name.text = true
    · simp only [tokenAt, List.getElem?_cons_zero, List.getElem?_cons_succ, ok_bind, named]
      rfl
    · simp only [tokenAt, List.getElem?_cons_zero, List.getElem?_cons_succ, ok_bind, named]
      rfl
  · have short : ¬ (directive :: name :: opening :: rest).length < 2 := by simp
    have long : ¬ (directive :: name :: opening :: rest).length = 2 := by simp
    by_cases named : isName name.text = true
    · by_cases opens : opening.kind = .mark '('
      · have params : readParams (directive :: name :: opening :: rest) 3 [] = _ :=
          read_params_eq opening true rest 3 [] rfl rfl rfl
        simp only [tokenAt, List.getElem?_cons_zero, List.getElem?_cons_succ, ok_bind, if_neg short, if_neg long, named,
          opens, params]
        rfl
      · simp only [tokenAt, List.getElem?_cons_zero, List.getElem?_cons_succ, ok_bind, if_neg short, if_neg long, named,
          opens]
        rfl
    · simp only [tokenAt, List.getElem?_cons_zero, List.getElem?_cons_succ, ok_bind, if_neg short, named]
      rfl

/-- Two readings agree if they do on either side of a condition. Both parsers branch on the same conditions. -/
theorem Agrees.ite {condition : Prop} [Decidable condition] {reading other : Reading} {parsed further : Parsed}
    (met : condition → Agrees reading parsed) (unmet : ¬ condition → Agrees other further) :
    Agrees (if condition then reading else other) (if condition then parsed else further) := by
  by_cases holds : condition
  · rw [if_pos holds, if_pos holds]
    exact met holds
  · rw [if_neg holds, if_neg holds]
    exact unmet holds

section Line

variable {registers : Registers} {progress : Progress} (represents : registers.Represents progress)

include represents

/-- Errors alone leave the registers as they are. -/
theorem Registers.Represents.complained (errors : List SyntaxError) :
    Agrees (.ok (registers, errors)) (progress, errors) := ⟨registers, rfl, represents⟩

/-- A line between blocks opens a block and puts it into its register, so that the register is filled when a body
begins. -/
theorem read_top_agrees (first : Token) (rest : List Token) :
    Agrees (readTop registers (first :: rest)) (parseTop progress first rest) := by
  have more : surplusFrom (first :: rest) 1 = .ok (Token.surplus rest) := surplus_from_eq (first :: rest) 1
  unfold readTop parseTop
  rw [tokenAt, List.getElem?_cons_zero]
  simp only [ok_bind, more, read_method_eq, represents.tree, represents.hasConstants]
  cases first.directive? with
  | none => exact represents.complained _
  | some directive =>
    apply Agrees.ite
    · intro _
      exact ⟨_, rfl, rfl, rfl, rfl⟩
    intro _
    apply Agrees.ite
    · intro _
      exact ⟨_, rfl, rfl, rfl, rfl, rfl⟩
    intro _
    apply Agrees.ite
    · intro _
      exact ⟨_, rfl, rfl, rfl, rfl, rfl⟩
    · intro _
      exact represents.complained _

/-- A line among constants adds one or closes them. No register but the tree is looked at. -/
theorem read_constant_agrees (first : Token) (rest : List Token) :
    Agrees (readConstant registers (first :: rest)) (parseConstant progress first rest) := by
  have more : surplusFrom (first :: rest) 1 = .ok (Token.surplus rest) := surplus_from_eq (first :: rest) 1
  unfold readConstant parseConstant
  rw [tokenAt, List.getElem?_cons_zero]
  simp only [ok_bind, more]
  cases first.directive? with
  | some directive =>
    apply Agrees.ite
    · intro _
      exact ⟨_, rfl, represents.tree, represents.hasConstants, rfl⟩
    · intro _
      exact represents.complained _
  | none =>
    apply Agrees.ite
    · intro _
      exact represents.complained _
    intro _
    cases rest with
    | nil => exact represents.complained _
    | cons value rest =>
      rw [if_neg (by simp : ¬ (first :: value :: rest).length < 2)]
      apply Agrees.ite
      · intro _
        exact represents.complained _
      intro _
      cases rest with
      | nil =>
        refine ⟨_, rfl, ?_, represents.hasConstants, represents.part⟩
        dsimp only
        rw [represents.tree]
      | cons other rest => exact represents.complained _

omit represents

/-- Tokens of a line of declarations are read while a block and its declarations are in their registers. Closing the
declarations asks for both registers; the induction on the tokens carries that they are filled. -/
theorem read_vars_agrees (line : TokenLine) (block : Block) (declared : VarBlock) (tokens : List Token)
    (tree : registers.tree = progress.tree) (hasConstants : registers.hasConstants = progress.hasConstants)
    (holds : registers.Holds (.variables block declared)) :
    Agrees (readVars line.tokens registers tokens) (parseVars progress block line declared tokens) := by
  have more : surplusFrom line.tokens 1 = .ok (Token.surplus line.rest) := surplus_from_eq line.tokens 1
  induction tokens generalizing registers declared with
  | nil => exact ⟨registers, rfl, tree, hasConstants, holds⟩
  | cons token rest ih =>
    obtain ⟨mode, inBlock, inDeclarations⟩ := holds
    have block_at : registers.openBlock = .ok block := by rw [Registers.openBlock, inBlock]
    have declared_at : registers.openDeclarations = .ok declared := by rw [Registers.openDeclarations, inDeclarations]
    obtain ⟨last, read, represents⟩ := ih declared tree hasConstants ⟨mode, inBlock, inDeclarations⟩
    unfold readVars parseVars
    simp only [more, block_at, declared_at, ok_bind, read]
    cases token.directive? with
    | some directive =>
      apply Agrees.ite
      · intro _
        exact ⟨_, rfl, tree, hasConstants, rfl, rfl⟩
      · intro _
        exact ⟨last, rfl, represents⟩
    | none =>
      apply Agrees.ite
      · intro _
        exact ⟨last, rfl, represents⟩
      intro _
      apply Agrees.ite
      · intro _
        exact ih _ tree hasConstants ⟨mode, inBlock, rfl⟩
      · intro _
        exact ⟨last, rfl, represents⟩

end Line

section Body

variable {registers : Registers} {progress : Progress} {block : Block} (tree : registers.tree = progress.tree)
  (hasConstants : registers.hasConstants = progress.hasConstants) (holds : registers.Holds (.body block))

include tree hasConstants holds

/-- A statement is added to the block in its register, which holds the larger block afterwards. -/
theorem add_statement_holds (statement : Statement) :
    ∃ next, registers.addStatement statement = .ok next ∧ next.tree = progress.tree ∧
      next.hasConstants = progress.hasConstants ∧ next.Holds (.body (addStatement block statement)) := by
  refine ⟨{ registers with block := some (addStatement block statement) }, ?_, tree, hasConstants, holds.1, rfl⟩
  rw [Registers.addStatement, Registers.openBlock, holds.2]
  rfl

/-- An instruction is added to the open block, or complained about. In the second case the block is not asked for. -/
theorem read_instruction_agrees (first : Token) (rest : List Token) :
    Agrees (readInstruction registers first rest)
      (match parseInstruction first rest with
        | .ok statement => ({ progress with part := .body (addStatement block statement) }, [])
        | .error error => ({ progress with part := .body block }, [error])) := by
  unfold readInstruction
  cases parseInstruction first rest with
  | error error => exact ⟨registers, rfl, tree, hasConstants, holds⟩
  | ok statement =>
    obtain ⟨next, added, represents⟩ := add_statement_holds tree hasConstants holds statement
    dsimp only
    rw [added]
    exact ⟨next, rfl, represents.1, represents.2.1, represents.2.2⟩

/-- A directive in a body opens declarations or closes the block, if it is the one for the block in its register.
Otherwise it is complained about. -/
theorem read_directive_agrees (directive : Text) (first : Token) (rest : List Token) :
    Agrees (readDirective registers directive first (first :: rest))
      (parseDirective progress block directive first rest) := by
  have more : surplusFrom (first :: rest) 1 = .ok (Token.surplus rest) := surplus_from_eq (first :: rest) 1
  have block_at : registers.openBlock = .ok block := by rw [Registers.openBlock, holds.2]
  unfold readDirective parseDirective
  simp only [more, block_at, ok_bind]
  apply Agrees.ite
  · intro _
    exact ⟨_, rfl, tree, hasConstants, rfl, holds.2, rfl⟩
  intro _
  -- The block decides which of the two directives closes it; the other one is complained about.
  by_cases closes : directive = (if block.isMain then ".end-main" else ".end-method" : Text)
  · have isEnd : directive = (".end-main" : Text) ∨ directive = (".end-method" : Text) := by
      rw [closes]
      cases block.isMain
      · exact .inr rfl
      · exact .inl rfl
    have matching : block.isMain = decide (directive = (".end-main" : Text)) := by
      rw [closes]
      cases block.isMain <;> decide
    rw [if_pos isEnd, if_pos matching, if_pos closes, ← tree]
    exact ⟨_, rfl, rfl, hasConstants, rfl⟩
  · have complained : Agrees (.ok (registers, [first.complain (.unexpected first.text)]))
        ({ progress with part := .body block }, [first.complain (.unexpected first.text)]) :=
      ⟨registers, rfl, tree, hasConstants, holds⟩
    rw [if_neg closes]
    by_cases isEnd : directive = (".end-main" : Text) ∨ directive = (".end-method" : Text)
    · have mismatched : ¬ block.isMain = decide (directive = (".end-main" : Text)) := by
        intro same
        apply closes
        rw [same]
        rcases isEnd with rfl | rfl <;> decide
      rw [if_pos isEnd, if_neg mismatched]
      exact complained
    · rw [if_neg isEnd]
      exact complained

omit tree hasConstants holds

/-- A line that starts with a directive is left to it. -/
theorem read_statement_directive {first : Token} {directive : Text} (isDirective : first.directive? = some directive)
    (rest : List Token) :
    readStatement registers (first :: rest) = readDirective registers directive first (first :: rest) := by
  rw [readStatement, tokenAt, List.getElem?_cons_zero]
  dsimp only
  rw [ok_bind, isDirective]

/-- A line with neither a directive nor a label in front is an instruction. The second token may be missing, which is
why it is asked for only in longer lines. -/
theorem read_statement_instruction {first : Token} (noDirective : first.directive? = none) (rest : List Token)
    (noLabel : ∀ second ∈ rest.head?, second.kind ≠ .mark ':') :
    readStatement registers (first :: rest) = readInstruction registers first rest := by
  rw [readStatement, tokenAt, List.getElem?_cons_zero]
  dsimp only
  rw [ok_bind, noDirective]
  cases rest with
  | nil => rfl
  | cons second rest =>
    dsimp only
    rw [if_pos (by simp : 2 ≤ (first :: second :: rest).length), tokenAt, List.getElem?_cons_succ,
      List.getElem?_cons_zero]
    dsimp only
    rw [ok_bind, if_neg (noLabel second rfl)]
    rfl

/-- Behind a word and a colon the rest of the line is read in the same way, if the word is a name. If nothing is left,
there is no further token to ask for. -/
theorem read_statement_label {first second : Token} (noDirective : first.directive? = none)
    (colon : second.kind = .mark ':') (rest : List Token) :
    readStatement registers (first :: second :: rest) =
      if isName first.text then do
        let next ← registers.addStatement (.label first.position first.text)
        if rest = [] then return (next, []) else readStatement next rest
      else return (registers, [first.complain (.badLabel first.text)]) := by
  rw [readStatement, tokenAt, List.getElem?_cons_zero]
  dsimp only
  rw [ok_bind, noDirective]
  dsimp only
  rw [if_pos (by simp : 2 ≤ (first :: second :: rest).length), tokenAt, List.getElem?_cons_succ,
    List.getElem?_cons_zero]
  dsimp only
  rw [ok_bind, if_pos colon]
  cases rest with
  | nil => rfl
  | cons third rest => rfl

include tree hasConstants holds

/-- A line of a body is read while the block is in its register, also behind labels. The induction is on the tokens
that are left, as labels are taken off in front. -/
theorem read_statement_agrees (tokens : List Token) (some : tokens ≠ []) :
    Agrees (readStatement registers tokens) (parseStatement progress block tokens) := by
  fun_induction parseStatement progress block tokens generalizing registers with
  | case1 => exact absurd rfl some
  | case2 block first directive isDirective =>
    rw [read_statement_directive isDirective]
    exact read_directive_agrees tree hasConstants holds directive first []
  | case3 block first noDirective statement parsed | case4 block first noDirective statement parsed =>
    have agrees := read_instruction_agrees tree hasConstants holds first []
    rw [parsed] at agrees
    rw [read_statement_instruction noDirective [] (by simp)]
    exact agrees
  | case5 block first second rest directive isDirective =>
    rw [read_statement_directive isDirective]
    exact read_directive_agrees tree hasConstants holds directive first (second :: rest)
  | case6 block first second rest noDirective colon named ih =>
    obtain ⟨next, added, sameTree, sameConstants, stillHolds⟩ :=
      add_statement_holds tree hasConstants holds (.label first.position first.text)
    rw [read_statement_label noDirective colon, if_pos named, added, ok_bind]
    by_cases ended : rest = []
    · rw [if_pos ended, ended, parseStatement]
      exact ⟨next, rfl, sameTree, sameConstants, stillHolds⟩
    · rw [if_neg ended]
      exact ih sameTree sameConstants stillHolds ended
  | case7 block first second rest noDirective colon unnamed =>
    rw [read_statement_label noDirective colon, if_neg unnamed]
    exact ⟨registers, rfl, tree, hasConstants, holds⟩
  | case8 block first second rest noDirective noColon statement parsed
  | case9 block first second rest noDirective noColon statement parsed =>
    have agrees := read_instruction_agrees tree hasConstants holds first (second :: rest)
    rw [parsed] at agrees
    rw [read_statement_instruction noDirective (second :: rest) (by simpa using noColon)]
    exact agrees

end Body

/-! ## Lines and sources -/

/-- A line is read while the registers hold what is being read. The mode tells which registers these are. -/
theorem read_line_agrees {registers : Registers} {progress : Progress} (represents : registers.Represents progress)
    (line : TokenLine) : Agrees (readLine registers line.tokens) (parseLine progress line) := by
  have holds := represents.part
  unfold readLine parseLine
  cases part : progress.part with
  | top =>
    rw [part] at holds
    rw [holds]
    exact read_top_agrees represents line.first line.rest
  | constants =>
    rw [part] at holds
    rw [holds]
    exact read_constant_agrees represents line.first line.rest
  | body block =>
    rw [part] at holds
    rw [holds.1]
    exact read_statement_agrees represents.tree represents.hasConstants holds line.tokens (List.cons_ne_nil _ _)
  | «variables» block declared =>
    rw [part] at holds
    rw [holds.1]
    exact read_vars_agrees line block declared line.tokens represents.tree represents.hasConstants holds

/-- All lines are read. The invariant is that the registers represent what was read so far, which each line keeps. -/
theorem read_lines_agrees {registers : Registers} {progress : Progress} (represents : registers.Represents progress)
    (complaints : List SyntaxError) (lines : List TokenLine) :
    Agrees (readLines registers complaints lines) (parseLines progress complaints lines) := by
  induction lines generalizing registers progress with
  | nil => exact represents.complained complaints
  | cons line rest ih =>
    obtain ⟨next, readNext, representsNext⟩ := read_line_agrees represents line
    obtain ⟨last, readLast, representsLast⟩ := ih representsNext
    rw [readLines, readNext, ok_bind]
    dsimp only
    rw [readLast, ok_bind, parse_lines_cons]
    exact ⟨last, rfl, representsLast⟩

/-- At the end the registers have what is asked of them: a block that is still open is complained about at its own
place, and for that its register must be filled. -/
theorem finish_eq {registers : Registers} {progress : Progress} (represents : registers.Represents progress)
    (stop : Position) : finish registers stop = .ok (missing progress stop) := by
  have holds := represents.part
  unfold finish missing
  cases part : progress.part with
  | top =>
    rw [part] at holds
    rw [holds, represents.tree]
    rfl
  | constants =>
    rw [part] at holds
    rw [holds]
    rfl
  | body block =>
    rw [part] at holds
    rw [holds.1, Registers.openBlock, holds.2]
    rfl
  | «variables» block declared =>
    rw [part] at holds
    rw [holds.1, Registers.openDeclarations, Registers.openBlock, holds.2.1, holds.2.2]
    rfl

/-- The parser with checked accesses is never stopped, and gives the same tree and errors, for every source. So the
places at which it could be stopped are never reached with an index outside of the line or with an empty register. -/
theorem checked_parse_eq (file : Text) (source : Source) : parse file source = .ok (source.parse file) := by
  have start : Registers.Represents { tree := { file } } { tree := { file } } := ⟨rfl, rfl, rfl⟩
  obtain ⟨last, read, represents⟩ := read_lines_agrees start source.lines.complaints source.lines.lines
  rw [parse, read, ok_bind]
  dsimp only
  rw [finish_eq represents, ok_bind, represents.tree]
  rfl

end Checked

end Source

end IntegerMachine
