import IntegerMachine.Proofs.ReadingOrder

/-!
# The order of syntax errors

Of the syntax errors of a source the first ten are kept. They come in the order in which they are found, and this is not
always the order of their places. There are three causes of a lapse: a line is read to its end before it is parsed, so
that what the reader has complained about in it comes first; a line of declarations that is closed behind other tokens
is complained about from its second token on once more; and a block that is still open at the end is complained about
at its start.

All other errors come in the order of their places. So errors are in order exactly if those are that may lapse.
-/
namespace IntegerMachine

namespace Source

/-! ## Errors about tokens -/

/-- Errors about tokens, in the order of the tokens. -/
def Concerns (errors : List SyntaxError) (tokens : List Token) : Prop :=
  (placesOf errors).Sublist (tokens.map Token.position)

section Concerning

variable {errors : List SyntaxError} {tokens : List Token}

/-- No errors are in the order of any tokens. -/
theorem concerns_nil (tokens : List Token) : Concerns [] tokens := List.nil_sublist _

/-- An error at the place of a token is in order by itself. -/
theorem concerns_one {error : SyntaxError} {token : Token} (member : token ∈ tokens)
    (place : error.position = token.position) : Concerns [error] tokens := by
  apply List.singleton_sublist.mpr
  rw [place]
  exact List.mem_map_of_mem member

/-- Errors about the tokens behind a token are about tokens that include it. -/
theorem Concerns.behind (concerns : Concerns errors tokens) (first : Token) : Concerns errors (first :: tokens) :=
  List.Sublist.cons _ concerns

/-- An error about a token, and errors about tokens behind it, in this order. -/
theorem Concerns.both (concerns : Concerns errors tokens) (first : Token) (complaint : Complaint) :
    Concerns (first.complain complaint :: errors) (first :: tokens) :=
  List.Sublist.cons_cons _ concerns

/-- Tokens that should not follow are complained about at the first of them, and only there. -/
theorem surplus_concerns (tokens : List Token) : Concerns (Token.surplus tokens) tokens := by
  cases tokens with
  | nil => exact concerns_nil []
  | cons token rest => exact (concerns_nil rest).both token _

/-- An error that is made under a condition only, in front of errors about the tokens behind it. A second section of
constants is such an error. -/
theorem Concerns.perhaps (concerns : Concerns errors tokens) (first : Token) {earlier : List SyntaxError}
    (own : earlier = [] ∨ ∃ complaint, earlier = [first.complain complaint]) :
    Concerns (earlier ++ errors) (first :: tokens) := by
  rcases own with rfl | ⟨complaint, rfl⟩
  · exact concerns.behind first
  · exact concerns.both first complaint

end Concerning

/-! ## Lines -/

/-- The errors of a list of parameters are about its tokens, or about the token in front of it. The latter is where a
list that is not closed is complained about. -/
theorem params_concern (last : Token) (first : Bool) (tokens : List Token) :
    Concerns (parseParams last first tokens).2 (last :: tokens) := by
  fun_induction parseParams last first tokens with
  | case1 last => exact concerns_one List.mem_cons_self rfl
  | case2 last first token rest => exact ((surplus_concerns rest).behind token).behind last
  | case3 last token rest _ word params errors parsed ih =>
    rw [parsed] at ih
    exact ih.behind last
  | case4 last token rest => exact concerns_one (List.mem_cons_of_mem _ List.mem_cons_self) rfl
  | case5 last first token => exact concerns_one (List.mem_cons_of_mem _ List.mem_cons_self) rfl
  | case6 last first comma _ _ _ token rest word params errors parsed ih =>
    rw [parsed] at ih
    exact (ih.behind comma).behind last
  | case7 last first comma _ _ _ token rest =>
    exact concerns_one (List.mem_cons_of_mem _ (List.mem_cons_of_mem _ List.mem_cons_self)) rfl
  | case8 last first token rest => exact concerns_one (List.mem_cons_of_mem _ List.mem_cons_self) rfl

/-- The errors of a line that opens a method are about its tokens. A missing name is complained about at the
directive. -/
theorem method_concerns (directive : Token) (rest : List Token) :
    Concerns (parseMethod directive rest).2 (directive :: rest) := by
  fun_cases parseMethod directive rest with
  | case1 => exact concerns_one List.mem_cons_self rfl
  | case2 => exact concerns_one List.mem_cons_self rfl
  | case3 => exact concerns_nil _
  | case4 _ name named _ opening rest _ params errors parsed =>
    have listed := params_concern opening true rest
    rw [parsed] at listed
    exact (listed.behind name).behind directive
  | case5 _ name named _ opening rest =>
    exact concerns_one (List.mem_cons_of_mem _ (List.mem_cons_of_mem _ List.mem_cons_self)) rfl

/-- The errors of a line between blocks are about its tokens. There may be two of them, about the directive and about
what should not follow it. -/
theorem top_concerns (progress : Progress) (first : Token) (rest : List Token) :
    Concerns (parseTop progress first rest).2 (first :: rest) := by
  fun_cases parseTop progress first rest with
  | case1 => exact concerns_one List.mem_cons_self rfl
  | case2 =>
    refine (surplus_concerns rest).perhaps first ?_
    split
    · exact .inr ⟨_, rfl⟩
    · exact .inl rfl
  | case3 =>
    refine (surplus_concerns rest).perhaps first ?_
    split
    · exact .inr ⟨_, rfl⟩
    · exact .inl rfl
  | case4 block errors parsed =>
    have method := method_concerns first rest
    rwa [parsed] at method
  | case5 => exact concerns_one List.mem_cons_self rfl

/-- The errors of a line within the block of constants are about its tokens, in their order. -/
theorem constant_concerns (progress : Progress) (first : Token) (rest : List Token) :
    Concerns (parseConstant progress first rest).2 (first :: rest) := by
  fun_cases parseConstant progress first rest with
  | case1 => exact (surplus_concerns rest).behind first
  | case2 => exact concerns_one List.mem_cons_self rfl
  | case3 => exact concerns_one List.mem_cons_self rfl
  | case4 => exact concerns_one List.mem_cons_self rfl
  | case5 => exact concerns_one (List.mem_cons_of_mem _ List.mem_cons_self) rfl
  | case6 => exact concerns_nil _
  | case7 =>
    refine Concerns.behind (Concerns.behind ?_ _) first
    exact surplus_concerns (_ :: _)

/-- An operand that is complained about is one of the tokens. Only the first one that is wrong is complained about. -/
theorem operands_concern (opcode : Opcode) (index : Nat) (tokens : List Token) {error : SyntaxError}
    (found : checkOperands opcode index tokens = some error) : ∃ token ∈ tokens, error.position = token.position := by
  induction tokens generalizing index with
  | nil => cases found
  | cons token rest ih =>
    rw [checkOperands] at found
    split at found
    · next other own =>
      cases found
      refine ⟨token, List.mem_cons_self, ?_⟩
      rw [checkOperand] at own
      split at own
      · split at own <;> cases own
        rfl
      · split at own <;> cases own
        rfl
    · obtain ⟨operand, member, place⟩ := ih (index + 1) found
      exact ⟨operand, List.mem_cons_of_mem _ member, place⟩

/-- The error of an instruction is about one of its tokens. There is only one error for each instruction. -/
theorem instruction_concerns {first : Token} {rest : List Token} {error : SyntaxError}
    (parsed : parseInstruction first rest = .error error) : Concerns [error] (first :: rest) := by
  rw [parseInstruction] at parsed
  split at parsed
  · cases parsed
    exact concerns_one List.mem_cons_self rfl
  · split at parsed
    · cases parsed
      exact concerns_one List.mem_cons_self rfl
    · split at parsed
      · cases parsed
        exact concerns_one List.mem_cons_self rfl
      · split at parsed
        · next wrong =>
          cases parsed
          obtain ⟨operand, member, place⟩ := operands_concern _ _ _ wrong
          exact concerns_one (List.mem_cons_of_mem _ member) place
        · cases parsed

/-- The errors of a line that starts with a directive are about its tokens, whether or not the directive may stand
there. -/
theorem directive_concerns (progress : Progress) (block : Block) (directive : Text) (first : Token)
    (rest : List Token) :
    Concerns (parseDirective progress block directive first rest).2 (first :: rest) := by
  by_cases opening : directive = (".var" : Text)
  · rw [parseDirective, if_pos opening]
    exact (surplus_concerns rest).behind first
  · rw [parseDirective, if_neg opening]
    by_cases closing : directive = (if block.isMain then ".end-main" else ".end-method" : Text)
    · rw [if_pos closing]
      exact (surplus_concerns rest).behind first
    · rw [if_neg closing]
      exact concerns_one List.mem_cons_self rfl

/-- The errors of a line of a body are about its tokens. The induction is on the labels in front; a word in front of a
colon that is no name is the last thing that is looked at. -/
theorem statement_concerns (progress : Progress) (block : Block) (tokens : List Token) :
    Concerns (parseStatement progress block tokens).2 tokens := by
  fun_induction parseStatement progress block tokens with
  | case1 => exact concerns_nil _
  | case2 block first directive => exact directive_concerns progress block directive first []
  | case3 => exact concerns_nil _
  | case4 block first _ error parsed => exact instruction_concerns parsed
  | case5 block first second rest directive => exact directive_concerns progress block directive first (second :: rest)
  | case6 block first second rest _ _ named ih => exact (ih.behind second).behind first
  | case7 => exact concerns_one List.mem_cons_self rfl
  | case8 => exact concerns_nil _
  | case9 block first second rest _ _ error parsed => exact instruction_concerns parsed

/-- What the errors of a line of declarations are about, from some token on. If a directive closes the declarations,
they are about the tokens in front of it, and behind them all tokens of the whole line but the first are surplus. -/
inductive DeclarationErrors (line : TokenLine) : List Token → List SyntaxError → Prop where
  | going {tokens : List Token} {errors : List SyntaxError} :
      Concerns errors tokens → DeclarationErrors line tokens errors
  | closing {passed behind : List Token} {closing : Token} {errors : List SyntaxError} :
      closing.directive? = some (".end-var" : Text) → Concerns errors passed →
      DeclarationErrors line (passed ++ closing :: behind) (errors ++ Token.surplus line.rest)

section Declaring

variable {line : TokenLine} {tokens : List Token} {errors : List SyntaxError}

/-- A token that is not complained about, such as a name or a comma, makes no difference. -/
theorem DeclarationErrors.behind (declares : DeclarationErrors line tokens errors) (first : Token) :
    DeclarationErrors line (first :: tokens) errors := by
  cases declares with
  | going concerns => exact .going (concerns.behind first)
  | closing closes concerns => exact .closing closes (concerns.behind first)

/-- A token that is complained about comes in front of the errors about the tokens behind it. -/
theorem DeclarationErrors.both (declares : DeclarationErrors line tokens errors) (first : Token)
    (complaint : Complaint) :
    DeclarationErrors line (first :: tokens) (first.complain complaint :: errors) := by
  cases declares with
  | going concerns => exact .going (concerns.both first complaint)
  | closing closes concerns => exact .closing closes (concerns.both first complaint)

/-- The two cases, for a line whose tokens are given. -/
theorem DeclarationErrors.cases_of (declares : DeclarationErrors line tokens errors) :
    Concerns errors tokens ∨ ∃ passed closing behind own, tokens = passed ++ closing :: behind ∧
      closing.directive? = some (".end-var" : Text) ∧ Concerns own passed ∧
      errors = own ++ Token.surplus line.rest := by
  cases declares with
  | going concerns => exact .inl concerns
  | closing closes concerns => exact .inr ⟨_, _, _, _, rfl, closes, concerns, rfl⟩

end Declaring

/-- The errors of a line of declarations are as described. The induction is on the tokens; the line as a whole stays
what it is, since closing the declarations goes back to it. -/
theorem vars_concern (progress : Progress) (block : Block) (line : TokenLine) (declared : VarBlock)
    (tokens : List Token) :
    DeclarationErrors line tokens (parseVars progress block line declared tokens).2 := by
  fun_induction parseVars progress block line declared tokens with
  | case1 => exact .going (concerns_nil _)
  | case2 declared closing behind isDirective => exact .closing isDirective (concerns_nil [])
  | case3 declared token rest _ _ _ parsed errors later ih =>
    rw [later] at ih
    exact ih.both token _
  | case4 declared token rest _ comma ih => exact ih.behind token
  | case5 declared token rest _ notComma word ih => exact ih.behind token
  | case6 declared token rest _ _ _ parsed errors later ih =>
    rw [later] at ih
    exact ih.both token _

/-- The errors of a line are about its tokens, unless it closes declarations behind other tokens. In this case the
second token of the line is complained about at the end. -/
theorem line_concerns (progress : Progress) (line : TokenLine) :
    Concerns (parseLine progress line).2 line.tokens ∨
      ∃ block declared passed closing behind own, progress.part = .variables block declared ∧
        line.rest = passed ++ closing :: behind ∧ closing.directive? = some (".end-var" : Text) ∧
        Concerns own (line.first :: passed) ∧ (parseLine progress line).2 = own ++ Token.surplus line.rest := by
  unfold parseLine
  cases part : progress.part with
  | top => exact .inl (top_concerns progress line.first line.rest)
  | constants => exact .inl (constant_concerns progress line.first line.rest)
  | body block => exact .inl (statement_concerns progress block line.tokens)
  | «variables» block declared =>
    have errors := vars_concern progress block line declared line.tokens
    rcases errors.cases_of with concerns | ⟨passed, closing, behind, own, shape, closes, concerns, found⟩
    · exact .inl concerns
    · cases passed with
      | nil =>
        -- The directive is the first token, so that there is no error in front of it.
        obtain rfl : own = [] := List.map_eq_nil_iff.mp (List.sublist_nil.mp concerns)
        left
        dsimp only
        rw [found, List.nil_append]
        exact (surplus_concerns line.rest).behind line.first
      | cons first passed =>
        obtain ⟨rfl, isRest⟩ := List.cons.inj shape
        exact .inr ⟨block, declared, passed, closing, behind, own, rfl, isRest, closes, concerns, found⟩

/-! ## Lapses -/

/-- The state of the parser behind some lines. -/
def progressAfter (file : Text) (lines : List TokenLine) : Progress :=
  lines.foldl (fun progress line => (parseLine progress line).1) { tree := { file } }

/-- One more line takes the parser one step further, with all lines before it read in the same way. -/
theorem progress_after_snoc (file : Text) (lines : List TokenLine) (line : TokenLine) :
    progressAfter file (lines ++ [line]) = (parseLine (progressAfter file lines) line).1 := by
  rw [progressAfter, List.foldl_append]
  rfl

/-- The errors of a line that follows some lines. -/
def lineErrors (file : Text) (before : List TokenLine) (line : TokenLine) : List SyntaxError :=
  (parseLine (progressAfter file before) line).2

/-- The block that is open. -/
def Part.openBlock? : Part → Option Block
  | .top | .constants => none
  | .body block | .variables block _ => some block

/-- Why an error may come behind one with a later place. -/
inductive Lapse (file : Text) (source : Source) (earlier later : SyntaxError) : Prop where
  /-- The reader has complained about a line before its errors are found. -/
  | read {before after : List TokenLine} {line : TokenLine} (listed : source.lines.lines = before ++ line :: after)
      (complained : earlier ∈ line.complaints) (found : later ∈ lineErrors file before line)
  /-- Declarations are closed behind other tokens; then the second token of the line is complained about. -/
  | closed {before after : List TokenLine} {line : TokenLine} (listed : source.lines.lines = before ++ line :: after)
      {block : Block} {declared : VarBlock} (declaring : (progressAfter file before).part = .variables block declared)
      {closing : Token} (behind : closing ∈ line.rest) (closes : closing.directive? = some (".end-var" : Text))
      (found : earlier ∈ lineErrors file before line) (surplus : later ∈ Token.surplus line.rest)
  /-- A block is open at the end, and is complained about at its start. -/
  | unclosed {block : Block} (isOpen : (progressAfter file source.lines.lines).part.openBlock? = some block)
      (missed : later ∈ missing (progressAfter file source.lines.lines) source.stop)

/-- Two errors are in order, or may lapse. -/
def Succeeds (file : Text) (source : Source) (earlier later : SyntaxError) : Prop :=
  earlier.position ≤ later.position ∨ Lapse file source earlier later

/-- Errors at places that are in order are in order, so that no lapse is needed for them. -/
theorem succeeds_of_climbs {file : Text} {source : Source} {low high : Position} {errors : List SyntaxError}
    (climbs : Climbs low (placesOf errors) high) : errors.Pairwise (Succeeds file source) :=
  (List.pairwise_map.mp climbs.inOrder).imp .inl

/-- The errors of a line are at places of its tokens, in whatever order they are. -/
theorem line_error_places (progress : Progress) (line : TokenLine) :
    placesOf (parseLine progress line).2 ⊆ line.tokens.map Token.position := by
  rcases line_concerns progress line with concerns | ⟨_, _, passed, closing, behind, own, _, shape, _, concerns, found⟩
  · exact concerns.subset
  · rw [found, placesOf, List.map_append, List.append_subset]
    constructor
    · rw [TokenLine.tokens, shape]
      refine List.Subset.trans concerns.subset (List.map_subset _ ?_)
      exact List.cons_subset_cons line.first (List.subset_append_left _ _)
    · exact ((surplus_concerns line.rest).behind line.first).subset

/-- The errors of a line are in order, or may lapse. A lapse within the errors of a line is that of declarations that
are closed. -/
theorem line_errors_succeed {file : Text} {source : Source} {before after : List TokenLine} {line : TokenLine}
    (listed : source.lines.lines = before ++ line :: after) {low high : Position}
    (tokens : Climbs low (line.tokens.map Token.position) high) :
    (lineErrors file before line).Pairwise (Succeeds file source) := by
  rcases line_concerns (progressAfter file before) line with
    concerns | ⟨block, declared, passed, closing, behind, own, declaring, shape, closes, concerns, found⟩
  · exact succeeds_of_climbs (tokens.sublist concerns)
  · have inFront : Concerns own line.tokens := by
      rw [TokenLine.tokens, shape]
      exact concerns.trans (List.Sublist.map _ (List.Sublist.cons_cons _ (List.sublist_append_left _ _)))
    rw [lineErrors, found, List.pairwise_append]
    refine ⟨?_, ?_, ?_⟩
    · exact succeeds_of_climbs (tokens.sublist inFront)
    · exact succeeds_of_climbs (tokens.sublist ((surplus_concerns line.rest).behind line.first))
    · intro earlier member later surplus
      have closingBehind : closing ∈ line.rest := by
        rw [shape]
        exact List.mem_append_right _ List.mem_cons_self
      refine .inr (.closed listed declaring closingBehind closes ?_ surplus)
      rw [lineErrors, found]
      exact List.mem_append_left _ member

/-- The errors of all lines are in order, or may lapse, and their places are in the text. The induction is on the lines
that are still to be parsed; `low` is a place that all lines before them do not exceed. -/
theorem lines_errors_succeed (file : Text) {source : Source} (lines before : List TokenLine)
    (listed : source.lines.lines = before ++ lines) {low last : Position} (ascent : Ascent LineClimbs low lines last)
    (rest : Climbs last (placesOf source.lines.complaints) source.stop) :
    (parseLines (progressAfter file before) source.lines.complaints lines).2.Pairwise (Succeeds file source) ∧
      ∀ error ∈ (parseLines (progressAfter file before) source.lines.complaints lines).2,
        low ≤ error.position ∧ error.position ≤ source.stop := by
  induction lines generalizing before low with
  | nil =>
    cases ascent with
    | nil upward =>
      refine ⟨succeeds_of_climbs rest, ?_⟩
      intro error member
      have place := List.mem_map_of_mem (f := SyntaxError.position) member
      exact ⟨le_trans upward (rest.above _ place), rest.below _ place⟩
  | cons line lines ih =>
    cases ascent with
    | @cons _ middle _ _ _ climbs later =>
      have next : (parseLine (progressAfter file before) line).1 = progressAfter file (before ++ [line]) :=
        (progress_after_snoc file before line).symm
      have listedLater : source.lines.lines = before ++ [line] ++ lines := by
        rw [listed, List.append_assoc, List.singleton_append]
      obtain ⟨succeed, within⟩ := ih (before ++ [line]) listedLater later
      have onward : middle ≤ source.stop :=
        le_trans (later.upward fun _ _ _ climbs => climbs.tokens.upward) rest.upward
      -- What concerns this line stays below `middle`, and what comes later does not.
      have own : ∀ error ∈ line.complaints ++ lineErrors file before line,
          low ≤ error.position ∧ error.position ≤ middle := by
        intro error member
        rcases List.mem_append.mp member with complained | found
        · have place := List.mem_map_of_mem (f := SyntaxError.position) complained
          exact ⟨climbs.complaints.above _ place, climbs.complaints.below _ place⟩
        · have place := line_error_places _ _ (List.mem_map_of_mem (f := SyntaxError.position) found)
          exact ⟨climbs.tokens.above _ place, climbs.tokens.below _ place⟩
      rw [parse_lines_cons, next]
      constructor
      · rw [List.pairwise_append, List.pairwise_append]
        refine ⟨⟨succeeds_of_climbs climbs.complaints, line_errors_succeed listed climbs.tokens, ?_⟩, succeed, ?_⟩
        · intro earlier complained later found
          exact .inr (.read listed complained found)
        · intro earlier member later behind
          exact .inl (le_trans (own earlier member).2 (within later behind).1)
      · rw [List.forall_mem_append]
        constructor
        · intro error member
          exact ⟨(own error member).1, le_trans (own error member).2 onward⟩
        · intro error member
          exact ⟨le_trans climbs.tokens.upward (within error member).1, (within error member).2⟩

/-- If no block is open at the end, what is missing is complained about there: a main block, or the end of the
constants. -/
theorem missing_at_stop {progress : Progress} (closed : progress.part.openBlock? = none) (stop : Position) :
    ∀ error ∈ missing progress stop, error.position = stop := by
  unfold missing
  cases part : progress.part with
  | top =>
    dsimp only
    split
    · simp
    · simp
  | constants => simp
  | body block | «variables» block declared =>
    rw [part] at closed
    cases closed

/-- What is missing at the end is in order behind the errors of the lines, or may lapse. If a block is open, all
errors about it may. -/
theorem missing_succeed {file : Text} {source : Source} {errors : List SyntaxError}
    (within : ∀ error ∈ errors, error.position ≤ source.stop) (succeed : errors.Pairwise (Succeeds file source)) :
    (errors ++ missing (progressAfter file source.lines.lines) source.stop).Pairwise (Succeeds file source) := by
  rw [List.pairwise_append]
  refine ⟨succeed, ?_⟩
  cases part : (progressAfter file source.lines.lines).part.openBlock? with
  | none =>
    have atStop := missing_at_stop part source.stop
    constructor
    · refine List.pairwise_of_forall_mem_list fun earlier missed later alsoMissed => .inl ?_
      rw [atStop earlier missed, atStop later alsoMissed]
    · intro earlier member later missed
      left
      rw [atStop later missed]
      exact within earlier member
  | some block =>
    have lapse (earlier later : SyntaxError)
        (missed : later ∈ missing (progressAfter file source.lines.lines) source.stop) :
        Succeeds file source earlier later := .inr (.unclosed part missed)
    constructor
    · exact List.pairwise_of_forall_mem_list fun earlier _ later missed => lapse earlier later missed
    · exact fun earlier _ later missed => lapse earlier later missed

/-! ## All errors -/

/-- Behind all lines the parser is in the state to which it was taken line by line. Complaints of the reader do not
change this state. -/
theorem outcome_progress (file : Text) (source : Source) :
    (source.outcome file).1 = progressAfter file source.lines.lines := by
  have stepwise (progress : Progress) (lines : List TokenLine) :
      (parseLines progress source.lines.complaints lines).1 =
        lines.foldl (fun progress line => (parseLine progress line).1) progress := by
    induction lines generalizing progress with
    | nil => rfl
    | cons line rest ih => exact ih _
  exact stepwise _ _

/-- The errors of a text are in order, or may lapse. Those that are cut off behind the tenth do not matter to the
others. -/
theorem errors_succeed (file text : Text) (failure : Option Text) :
    ((ofText text failure).parse file).2.Pairwise (Succeeds file (ofText text failure)) := by
  obtain ⟨last, ascent, rest⟩ := lines_ascend text failure
  obtain ⟨succeed, within⟩ := lines_errors_succeed file _ [] rfl ascent rest
  have all := missing_succeed (fun error member => (within error member).2) succeed
  rw [← outcome_progress] at all
  exact all.sublist (List.take_sublist _ _)

end Source

/-- Syntax errors in the order of their places. -/
def SyntaxError.InOrder (errors : List SyntaxError) : Prop :=
  errors.Pairwise fun earlier later => earlier.position ≤ later.position

instance (errors : List SyntaxError) : Decidable (SyntaxError.InOrder errors) :=
  inferInstanceAs (Decidable (errors.Pairwise _))

namespace Source

/-- At most ten syntax errors are kept. They are in the order of their places exactly if those are that may lapse: the
complaints of the reader about a line and the errors of that line, the errors of a line that closes declarations behind
other tokens, and what is said at the end about an open block. -/
theorem errors_in_order_iff (file text : Text) (failure : Option Text) :
    let errors := ((ofText text failure).parse file).2
    errors.length ≤ 10 ∧
      (SyntaxError.InOrder errors ↔ errors.Pairwise fun earlier later =>
        Lapse file (ofText text failure) earlier later → earlier.position ≤ later.position) := by
  intro errors
  have succeed := errors_succeed file text failure
  constructor
  · exact List.length_take_le _ _
  · constructor
    · intro inOrder
      refine inOrder.imp ?_
      intro earlier later ordered _
      exact ordered
    · intro lapses
      refine succeed.imp₂ ?_ lapses
      intro earlier later succeeds ordered
      rcases succeeds with inOrder | lapse
      · exact inOrder
      · exact ordered lapse

/-- A line with an unknown instruction and an empty character literal. -/
def misread : Text := ".main
BOGUS ''
.end-main
"

/-- What the reader has complained about comes in front of what is wrong with the start of the line. -/
theorem misread_out_of_order :
    ((ofText misread).parse "s").2.map (fun error => (error.position.line, error.position.column)) = [(2, 7), (2, 1)] ∧
      ¬ SyntaxError.InOrder ((ofText misread).parse "s").2 := by
  decide +kernel

/-- Declarations that are closed behind other tokens: the second token is complained about again. -/
example : ¬ SyntaxError.InOrder ((ofText ".main\n.var\n1 2 3 .end-var\n.end-main\n").parse "s").2 := by
  decide +kernel

/-- Declarations that are open at the end: they start behind the block that they are in. -/
example : ¬ SyntaxError.InOrder ((ofText ".main\n.var\n").parse "s").2 := by
  decide +kernel

end Source

end IntegerMachine
