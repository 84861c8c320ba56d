import IntegerMachine.Proofs.TokenTexts
import Mathlib.Order.Defs.PartialOrder

/-!
# The order in which a source is read

Places are compared by line and then by column. A source is read forward: what the reader complains about, and the
tokens that it gives, come in the order of their places. A complaint can be made later than its place, since it is put
at the start of the token or comment that is being read; but nothing that is read before the next lexeme is put in front
of that start.

Every step of reading is described by two places between which it stays. Steps that fit together, each starting where
the one before it ends, stay in order.
-/
namespace IntegerMachine

/-! ## Places -/

/-- Places are compared by line, and within a line by column. -/
instance : LE Position where
  le one other := one.line < other.line ∨ one.line = other.line ∧ one.column ≤ other.column

/-- The order of places, written out. -/
theorem Position.le_iff {one other : Position} :
    one ≤ other ↔ one.line < other.line ∨ one.line = other.line ∧ one.column ≤ other.column := Iff.rfl

instance (one other : Position) : Decidable (one ≤ other) := decidable_of_iff _ Position.le_iff.symm

instance : Preorder Position where
  le_refl position := .inr ⟨rfl, Nat.le_refl _⟩
  le_trans one other third := by
    simp only [Position.le_iff]
    omega

/-- Behind a glyph is not in front of it: the column or the line has grown. -/
theorem Position.le_after (position : Position) (glyph : Glyph) : position ≤ position.after glyph := by
  rw [Position.le_iff, Position.after]
  split
  · exact .inl (Nat.lt_succ_self _)
  · exact .inr ⟨rfl, Nat.le_succ _⟩

/-- Places in order that stay between two places. -/
structure Climbs (low : Position) (places : List Position) (high : Position) : Prop where
  upward : low ≤ high
  inOrder : places.Pairwise (· ≤ ·)
  above : ∀ place ∈ places, low ≤ place
  below : ∀ place ∈ places, place ≤ high

namespace Climbs

variable {low middle high : Position} {places others : List Position}

/-- No places are in order between any two places that are in order themselves. -/
theorem nil (upward : low ≤ high) : Climbs low [] high := ⟨upward, .nil, by simp, by simp⟩

/-- One behind the other, places stay in order. The place between them is what makes the later ones not precede the
earlier ones. -/
theorem append (first : Climbs low places middle) (second : Climbs middle others high) :
    Climbs low (places ++ others) high := by
  constructor
  · exact le_trans first.upward second.upward
  · rw [List.pairwise_append]
    refine ⟨first.inOrder, second.inOrder, ?_⟩
    intro place earlier other later
    exact le_trans (first.below place earlier) (second.above other later)
  · rw [List.forall_mem_append]
    exact ⟨first.above, fun other later => le_trans first.upward (second.above other later)⟩
  · rw [List.forall_mem_append]
    exact ⟨fun place earlier => le_trans (first.below place earlier) second.upward, second.below⟩

/-- Places that are all the same stay in order. Complaints with an anchor are of this kind. -/
theorem same {place : Position} (before : low ≤ place) (behind : place ≤ high)
    (all : ∀ other ∈ places, other = place) : Climbs low places high := by
  constructor
  · exact le_trans before behind
  · refine List.pairwise_of_forall_mem_list ?_
    intro one member other otherMember
    rw [all one member, all other otherMember]
  · intro other member
    rwa [all other member]
  · intro other member
    rwa [all other member]

/-- Some of the places stay in order. -/
theorem sublist (climbs : Climbs low places high) (some : others.Sublist places) : Climbs low others high :=
  ⟨climbs.upward, climbs.inOrder.sublist some, fun place member => climbs.above place (some.subset member),
    fun place member => climbs.below place (some.subset member)⟩

/-- Places stay between two places if these move apart. -/
theorem widen {lower higher : Position} (climbs : Climbs low places high) (down : lower ≤ low) (up : high ≤ higher) :
    Climbs lower places higher :=
  ⟨le_trans down (le_trans climbs.upward up), climbs.inOrder,
    fun place member => le_trans down (climbs.above place member),
    fun place member => le_trans (climbs.below place member) up⟩

end Climbs

/-- Steps that lead from one place to another, each from the place to which the one before it leads. -/
inductive Ascent {Step : Type} (Leads : Position → Step → Position → Prop) :
    Position → List Step → Position → Prop where
  | nil {low high : Position} : low ≤ high → Ascent Leads low [] high
  | cons {low middle high : Position} {step : Step} {rest : List Step} :
      Leads low step middle → Ascent Leads middle rest high → Ascent Leads low (step :: rest) high

/-- Steps that lead forward end at a place that is not before their start. -/
theorem Ascent.upward {Step : Type} {Leads : Position → Step → Position → Prop}
    (forward : ∀ low step high, Leads low step high → low ≤ high) {low high : Position} {steps : List Step}
    (ascent : Ascent Leads low steps high) : low ≤ high := by
  induction ascent with
  | nil upward => exact upward
  | cons leads _ ih => exact le_trans (forward _ _ _ leads) ih

/-- The places of errors. -/
def placesOf (errors : List SyntaxError) : List Position := errors.map SyntaxError.position

namespace Source

/-! ## Marks -/

/-- The place of the first of the given marks, or of the end. -/
def front (source : Source) : List Mark → Position
  | [] => source.stop
  | mark :: _ => mark.position

/-- The place of marks is that of the first one. -/
@[simp] theorem front_cons (source : Source) (mark : Mark) (rest : List Mark) :
    source.front (mark :: rest) = mark.position := rfl

/-- Marks behind a place, each complained about between the mark before it and itself; and so is the end. -/
def Aligned (source : Source) (previous : Position) : List Mark → Prop
  | [] => Climbs previous (placesOf source.stopComplaints) source.stop
  | mark :: rest => Climbs previous (placesOf mark.complaints) mark.position ∧ source.Aligned mark.position rest

/-- The failure of the device is complained about at one place, if it is at all. -/
theorem failure_places (failure : Option Text) (position : Position) :
    ∀ place ∈ placesOf (failureAt failure position), place = position := by
  cases failure with
  | none => simp [placesOf, failureAt]
  | some text => simp [placesOf, failureAt]

/-- A glyph is complained about between the glyph before it and itself. Where the device has failed within a
character, the failure is complained about at the glyph before, and then the stray byte at its own place. -/
theorem complaints_climb (failure : Option Text) {previous position : Position} (upward : previous ≤ position)
    (glyph : Glyph) : Climbs previous (placesOf (complaintsOf failure previous position glyph)) position := by
  cases glyph with
  | char character =>
    apply Climbs.same upward (le_refl position)
    rw [complaintsOf]
    split
    · simp [placesOf]
    · simp [placesOf]
  | stray byte cut =>
    have own : Climbs position (placesOf [{ position, complaint := .invalidEncoding }]) position :=
      .same (le_refl position) (le_refl position) (by simp [placesOf])
    rw [complaintsOf, placesOf, List.map_append]
    refine Climbs.append ?_ own
    split
    · exact .same (le_refl previous) upward (failure_places failure previous)
    · exact .nil upward

/-- The marks of a text are aligned. The induction is on the glyphs and carries the place of the glyph before. -/
theorem marks_aligned (source : Source) (failure : Option Text) (glyphs : List Glyph) {previous position : Position}
    (upward : previous ≤ position) (stop : source.stop = endFrom position glyphs)
    (stopComplaints : source.stopComplaints = failureAt failure (lastFrom previous position glyphs)) :
    source.Aligned previous (marksFrom failure previous position glyphs) := by
  induction glyphs generalizing previous position with
  | nil =>
    rw [marksFrom, Aligned, stop, stopComplaints]
    exact .same (le_refl previous) upward (failure_places failure previous)
  | cons glyph rest ih =>
    constructor
    · exact complaints_climb failure upward glyph
    · exact ih (position.le_after glyph) stop stopComplaints

section Reading

variable {source : Source} {previous : Position} {marks : List Mark}

/-- The first mark is read between the place in front of it and its own. If there is none, the same holds of the
end. -/
theorem Aligned.reading (aligned : source.Aligned previous marks) :
    Climbs previous (placesOf (source.reading none marks)) (source.front marks) := by
  have unmoved (errors : List SyntaxError) : anchored none errors = errors := List.map_id _
  cases marks with
  | nil =>
    rw [Source.reading, unmoved]
    exact aligned
  | cons mark rest =>
    rw [Source.reading, unmoved]
    exact aligned.1

/-- The place of what comes next is not in front of the place before it, as nothing is read backward. -/
theorem Aligned.upward (aligned : source.Aligned previous marks) : previous ≤ source.front marks :=
  aligned.reading.upward

/-- However many marks are passed over, the place of what comes next is not in front of the first of them. -/
theorem Aligned.front_drop {first : Mark} (aligned : source.Aligned previous (first :: marks)) (count : Nat) :
    first.position ≤ source.front (marks.drop count) := by
  induction count generalizing previous first marks with
  | zero => exact aligned.2.upward
  | succ count ih =>
    cases marks with
    | nil => exact aligned.2.upward
    | cons second rest => exact le_trans aligned.2.upward (ih aligned.2)

end Reading

/-- Complaints with an anchor are put there, whatever their own place is. -/
theorem anchored_places (anchor : Position) (errors : List SyntaxError) :
    ∀ place ∈ placesOf (anchored (some anchor) errors), place = anchor := by
  simp [placesOf, anchored]

/-- With an anchor, a mark is complained about there, and so is the end. -/
theorem reading_places (source : Source) (anchor : Position) (marks : List Mark) :
    ∀ place ∈ placesOf (source.reading (some anchor) marks), place = anchor := by
  cases marks with
  | nil => exact anchored_places anchor _
  | cons mark rest => exact anchored_places anchor _

/-- With an anchor, marks that are passed are complained about there, all of them at one place. -/
theorem advancing_places (source : Source) (anchor : Position) (count : Nat) (marks : List Mark) :
    ∀ place ∈ placesOf (source.advancing (some anchor) count marks), place = anchor := by
  induction count generalizing marks with
  | zero => simp [placesOf, advancing]
  | succ count ih =>
    rw [advancing, placesOf, List.map_append, List.forall_mem_append]
    exact ⟨source.reading_places anchor marks.tail, ih marks.tail⟩

/-- Without an anchor, marks that are passed are complained about in order. The induction is on how many are
passed. -/
theorem Aligned.advancing {source : Source} {previous : Position} {marks : List Mark}
    (aligned : source.Aligned previous marks) {count : Nat} (within : count ≤ marks.length) :
    Climbs (source.front marks) (placesOf (source.advancing none count marks)) (source.front (marks.drop count)) := by
  induction count generalizing previous marks with
  | zero => exact .nil (le_refl _)
  | succ count ih =>
    cases marks with
    | nil => exact absurd within (Nat.not_succ_le_zero count)
    | cons mark rest =>
      rw [Source.advancing, placesOf, List.map_append]
      exact aligned.2.reading.append (ih aligned.2 (Nat.le_of_succ_le_succ within))

/-! ## Lexemes -/

/-- A complaint that is made under a condition only is at its place. -/
theorem conditional_places {condition : Prop} [Decidable condition] (anchor : Position) (complaint : Complaint) :
    ∀ place ∈ placesOf (if condition then [] else [{ position := anchor, complaint }]), place = anchor := by
  split
  · simp [placesOf]
  · simp [placesOf]

/-- The end of a character literal is complained about at its start. There may be two complaints, about a missing
quote and about the number of characters. -/
theorem literal_end_places (anchor : Position) (closed : Bool) (count : Nat) :
    ∀ place ∈ placesOf (literalEnd anchor closed count), place = anchor := by
  rw [literalEnd, placesOf, List.map_append, List.forall_mem_append]
  exact ⟨conditional_places anchor _, conditional_places anchor _⟩

/-- A character literal is complained about at its start, wherever in it something is wrong. -/
theorem literal_rest_places (source : Source) (anchor : Position) (phase : LiteralPhase) (count : Nat)
    (marks : List Mark) :
    ∀ place ∈ placesOf (source.literalRest anchor phase count marks).complaints, place = anchor := by
  fun_induction literalRest source anchor phase count marks with
  | case1 phase count =>
    simp only [placesOf, List.map_append, List.forall_mem_append]
    exact ⟨⟨conditional_places anchor _, literal_end_places anchor _ _⟩, source.reading_places anchor []⟩
  | case2 phase count mark rest next continued ih =>
    simp only [Stretch.longer, placesOf, List.map_append, List.forall_mem_append]
    exact ⟨source.reading_places anchor rest, ih⟩
  | case3 phase count mark rest =>
    simp only [placesOf, List.map_append, List.forall_mem_append]
    exact ⟨⟨conditional_places anchor _, literal_end_places anchor _ _⟩, source.reading_places anchor rest⟩
  | case4 phase count mark rest =>
    simp only [placesOf, List.map_append, List.forall_mem_append]
    exact ⟨⟨conditional_places anchor _, literal_end_places anchor _ _⟩, source.reading_places anchor rest⟩
  | case5 phase count mark rest _ _ _ _ _ _ ih =>
    simp only [Stretch.longer, placesOf, List.map_append, List.forall_mem_append]
    exact ⟨⟨conditional_places anchor _, source.reading_places anchor rest⟩, ih⟩
  | case6 phase count mark rest _ _ _ _ _ _ ih =>
    simp only [Stretch.longer, placesOf, List.map_append, List.forall_mem_append]
    exact ⟨⟨conditional_places anchor _, source.reading_places anchor rest⟩, ih⟩

/-- A lexeme is complained about at its start, unless it is a comment behind a semicolon: its characters are complained
about at their own places. -/
theorem lexeme_places {source : Source} {first : Mark} {rest : List Mark} {previous : Position}
    (aligned : source.Aligned previous (first :: rest)) {kind : Lexeme} {stretch : Stretch}
    (taken : source.lexeme first rest = (kind, stretch)) :
    (∀ place ∈ placesOf stretch.complaints, place = first.position) ∨
      kind = .lineComment ∧
        Climbs first.position (placesOf stretch.complaints) (source.front (rest.drop stretch.length)) := by
  have advanced (length : Nat) (more : List SyntaxError) (own : ∀ place ∈ placesOf more, place = first.position) :
      ∀ place ∈ placesOf (source.advancing first.position (length + 1) (first :: rest) ++ more),
        place = first.position := by
    rw [placesOf, List.map_append, List.forall_mem_append]
    exact ⟨source.advancing_places first.position _ _, own⟩
  obtain rfl : (source.lexeme first rest).2 = stretch := congrArg Prod.snd taken
  obtain rfl : (source.lexeme first rest).1 = kind := congrArg Prod.fst taken
  clear taken
  fun_cases lexeme source first rest with
  | case1 => exact .inl (advanced _ [] (by simp [placesOf]))
  | case2 =>
    left
    simp only [placesOf, List.map_append, List.forall_mem_append]
    exact ⟨source.reading_places first.position rest, source.literal_rest_places first.position .plain 0 rest⟩
  | case3 => exact .inl (advanced _ [] (by simp [placesOf]))
  | case4 => exact .inl (advanced _ [] (by simp [placesOf]))
  | case5 => exact .inl (advanced _ _ (List.forall_mem_singleton.mpr rfl))
  | case6 =>
    right
    refine ⟨rfl, ?_⟩
    simp only [placesOf, List.map_append]
    have own : Climbs first.position (placesOf (source.reading (some first.position) rest)) (source.front rest) :=
      .same (le_refl _) aligned.2.upward (source.reading_places first.position rest)
    exact own.append (aligned.2.advancing (List.takeWhile_prefix _).length_le)
  | case7 => exact .inl (advanced _ [] (by simp [placesOf]))

/-! ## Items and lines -/

/-- The places of the complaints and of the token of an item. -/
def Item.places (item : Item) : List Position := placesOf item.complaints ++ item.token.toList.map Token.position

/-- Reading starts at the anchor if there is one, and this is not behind the marks. -/
theorem start_le {anchor : Option Position} {position : Position} (anchored : ∀ place ∈ anchor, place ≤ position) :
    anchor.getD position ≤ position := by
  cases anchor with
  | none => exact le_refl position
  | some place => exact anchored place rfl

/-- Items are read forward. With an anchor, which is the start of a comment, the blanks behind it are complained about
there; otherwise reading starts where the marks do. -/
theorem items_after_ascend (source : Source) (skipped : Nat) (anchor : Option Position) (marks : List Mark)
    {previous : Position} (aligned : source.Aligned previous marks)
    (anchored : ∀ place ∈ anchor, place ≤ source.front (marks.drop skipped)) :
    Ascent (fun low item high => Climbs low item.places high) (anchor.getD (source.front (marks.drop skipped)))
      (source.itemsAfter skipped anchor marks) source.stop := by
  fun_induction itemsAfter source skipped anchor marks generalizing previous with
  | case1 skipped anchor =>
    rw [List.drop_nil] at anchored ⊢
    exact .nil (start_le anchored)
  | case2 anchor first rest remaining ih => exact ih aligned.2 anchored
  | case3 anchor first rest blank ih =>
    cases anchor with
    | none =>
      refine .cons ?_ (ih aligned.2 (by simp))
      simpa [Item.places] using aligned.2.reading
    | some place =>
      have before : place ≤ first.position := anchored place rfl
      have next : place ≤ source.front rest := le_trans before aligned.2.upward
      refine .cons ?_ (ih aligned.2 (by simpa using next))
      refine .same (le_refl place) (le_refl place) ?_
      simpa [Item.places] using source.reading_places place rest
  | case4 anchor first rest notBlank stretch kind text taken =>
    rename_i ih
    have before : anchor.getD first.position ≤ first.position := start_le anchored
    rcases lexeme_places aligned taken with own | ⟨other, _⟩
    · refine .cons ?_ (ih aligned.2 (by simp))
      refine .same before (aligned.front_drop stretch.length) ?_
      simpa [Item.places, or_imp, forall_and] using own
    · cases other
  | case5 anchor first rest notBlank stretch taken ih =>
    have before : anchor.getD first.position ≤ first.position := start_le anchored
    rcases lexeme_places aligned taken with own | ⟨other, _⟩
    · refine .cons ?_ (ih aligned.2 (by simpa using aligned.front_drop stretch.length))
      refine .same before (le_refl _) ?_
      simpa [Item.places] using own
    · cases other
  | case6 anchor first rest notBlank stretch taken ih =>
    have before : anchor.getD first.position ≤ first.position := start_le anchored
    refine .cons ?_ (ih aligned.2 (by simp))
    rw [Item.places, Option.toList_none, List.map_nil, List.append_nil]
    rcases lexeme_places aligned taken with own | ⟨_, climbs⟩
    · exact .same before (aligned.front_drop stretch.length) own
    · exact climbs.widen before (le_refl _)

/-- The items of a source are read forward, from its start to its end. -/
theorem items_ascend {source : Source} {start : Position} (aligned : source.Aligned start source.marks) :
    Ascent (fun low item high => Climbs low item.places high) start source.items source.stop := by
  have first : Climbs start (Item.places { token := none, complaints := source.reading none source.marks })
      (source.front source.marks) := by
    simpa [Item.places] using aligned.reading
  refine .cons first ?_
  cases marks : source.marks with
  | nil => exact .nil (le_refl _)
  | cons mark rest =>
    rw [marks] at aligned
    by_cases isOrderMark : mark.character = byteOrderMark
    · simp only [if_pos isOrderMark]
      refine .cons ?_ (source.items_after_ascend 0 none rest aligned.2 (by simp))
      simpa [Item.places] using aligned.2.reading
    · simp only [if_neg isOrderMark]
      exact source.items_after_ascend 0 none (mark :: rest) aligned (by simp)

/-- A line of tokens between two places: its complaints are in order, and so are its tokens. -/
structure LineClimbs (low : Position) (line : TokenLine) (high : Position) : Prop where
  complaints : Climbs low (placesOf line.complaints) high
  tokens : Climbs low (line.tokens.map Token.position) high

/-- Complaints of an item behind those of its line are in order. -/
theorem joined {complaints more : List SyntaxError} {low middle high : Position}
    (complained : Climbs low (placesOf complaints) middle) (leads : Climbs middle (placesOf more) high) :
    Climbs low (placesOf (complaints ++ more)) high := by
  rw [placesOf, List.map_append]
  exact complained.append leads

/-- Items that are read forward are gathered into lines, one behind the other. The induction carries what was gathered
of the current line, which stays between two places. -/
theorem gather_ascend (complaints : List SyntaxError) (tokens : List Token) (items : List Item)
    {low middle stop : Position} (complained : Climbs low (placesOf complaints) middle)
    (given : Climbs low (tokens.map Token.position) middle)
    (ascent : Ascent (fun low item high => Climbs low item.places high) middle items stop) :
    ∃ last, Ascent LineClimbs low (gather complaints tokens items).lines last ∧
      Climbs last (placesOf (gather complaints tokens items).complaints) stop := by
  fun_induction gather complaints tokens items generalizing low middle with
  | case1 complaints =>
    cases ascent with
    | nil upward => exact ⟨low, .nil (le_refl low), complained.widen (le_refl low) upward⟩
  | case2 complaints first rest =>
    cases ascent with
    | nil upward =>
      refine ⟨stop, .cons ?_ (.nil (le_refl stop)), .nil (le_refl stop)⟩
      exact ⟨complained.widen (le_refl low) upward, given.widen (le_refl low) upward⟩
  | case3 complaints tokens item items more none =>
    rename_i ih
    cases ascent with
    | cons leads later =>
      rw [Item.places, none, Option.toList_none, List.map_nil, List.append_nil] at leads
      exact ih (joined complained leads) (given.widen (le_refl low) leads.upward) later
  | case4 complaints item items more token isToken isNewline =>
    rename_i ih
    cases ascent with
    | cons leads later =>
      have own := leads.sublist (List.sublist_append_left _ _)
      exact ih (joined complained own) (given.widen (le_refl low) leads.upward) later
  | case5 complaints item items more token isToken isNewline first rest =>
    rename_i lines ih
    cases ascent with
    | @cons _ next _ _ _ leads later =>
      have own := leads.sublist (List.sublist_append_left _ _)
      obtain ⟨last, ascends, climbs⟩ := ih (.nil (le_refl next)) (.nil (le_refl next)) later
      exact ⟨last, .cons ⟨joined complained own, given.widen (le_refl low) leads.upward⟩ ascends, climbs⟩
  | case6 complaints tokens item items more token isToken _ =>
    rename_i ih
    cases ascent with
    | cons leads later =>
      have own := leads.sublist (List.sublist_append_left _ _)
      have placed := leads.sublist (List.sublist_append_right _ _)
      rw [isToken] at placed
      refine ih (joined complained own) ?_ later
      rw [List.map_append]
      exact given.append placed

/-- The lines of a text come one behind the other, from its start to its end. The complaints behind the last line come
after them. -/
theorem lines_ascend (text : Text) (failure : Option Text) :
    ∃ last, Ascent LineClimbs .start (ofText text failure).lines.lines last ∧
      Climbs last (placesOf (ofText text failure).lines.complaints) (ofText text failure).stop := by
  have aligned : (ofText text failure).Aligned .start (ofText text failure).marks :=
    marks_aligned _ failure text.glyphs (le_refl _) rfl rfl
  have nothing : Climbs .start [] .start := .nil (le_refl _)
  exact gather_ascend [] [] _ nothing nothing (items_ascend aligned)

end Source

end IntegerMachine
