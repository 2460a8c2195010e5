/-
Integer literals whose value is a number of the document, or the numeral of one.

A literal takes a text as it stands, and a number by way of a signed 64-bit word (`InWord`), although a document holds
all numbers below `2 ^ 64` (`Number.Fits`). Whichever text comes of it goes through the reading of literals, which knows
no minus sign and so leaves the numerals of negative numbers alone.

- `decimal_toString`: the numeral of an integer comes to itself.
- `integerText?_number`: a number has a text just if a signed word holds it.
- `convert_integers`: the two ways are one literal just if a signed word holds the number; beyond that, the numeral is a
  literal and the number fails.
-/
import Graft.Proofs.Clauses
import Graft.Proofs.Numerals

namespace Graft.Convert

open Graft.Document Attempt

/-- the node is an integer literal at a position, and this is its value -/
structure IntegerNode (pos : Position) (v : Value) (node : Node) : Prop where
  tagged : node.tag = some "Int"
  held : node.get? "value" = some v
  placed : positionOf node = pos

/-! ## Numerals of integers as literals -/

/-- A numeral has no blanks around it. -/
theorem trim_toString (n : Int) : Text.trim (toString n).toList = (toString n).toList := by
  obtain ⟨hsome, hmid⟩ := (signedDigits_toString n).not_blank
  have htrim := Text.IntegerLiteral.trim_append (List.forall_mem_nil _) hmid hsome (List.forall_mem_nil _)
  rwa [List.nil_append, List.append_nil] at htrim

/-- The numeral of an integer comes to itself: without a sign it is read as what it says, and with one it is not read. -/
theorem decimal_toString {n : Int} (hn : n < Text.unsignedLimit) :
    Text.IntegerLiteral.decimal (toString n) = toString n := by
  cases n with
  | ofNat n =>
    have hwritten := Text.IntegerLiteral.written_numeral n
    exact Text.IntegerLiteral.decimal_of_value? (Text.IntegerLiteral.value?_of_written hwritten (Int.ofNat_lt.1 hn))
  | negSucc n =>
    -- there is no value with a minus sign, and such a text stays as it is
    have hminus : (toString (Int.negSucc n)).toList = '-' :: Nat.toDigits 10 (n + 1) := toList_negSucc n
    have hvalue := Text.IntegerLiteral.value?_minus ((trim_toString (.negSucc n)).trans hminus)
    rw [Text.IntegerLiteral.decimal, hvalue]

theorem toString_ne_none (n : Int) : toString n ≠ "None" := by
  intro h
  have hletter : ∀ c ∈ (toString n).toList, c ≠ 'N' :=
    (signedDigits_toString n).forall (by decide) (by decide) (by decide)
  rw [h] at hletter
  exact hletter 'N' (by decide) rfl

/-! ## The text of a literal -/

variable {pos : Position} {v : Value} {node : Node} {n : Int}

theorem integerText?_numeral (h : node.get? "value" = some (.string (toString n))) :
    integerText? node = some (toString n) := by
  have hpresent : node.present? "value" = some (.string (toString n)) := by
    rw [Node.present?, h, Option.filter_some, if_pos]
    simpa [Value.isAbsent] using toString_ne_none n
  rw [integerText?, hpresent]
  rfl

/-- A number has a text just if a signed word holds it. -/
theorem integerText?_number (hn : (Number.int n).Fits) (h : node.get? "value" = some (.number (.int n))) :
    integerText? node = if InWord n then some (toString n) else none := by
  have hpresent : node.present? "value" = some (.number (.int n)) := by
    rw [Node.present?, h]
    rfl
  have htext : integerText? node = (Value.number (.int n)).int?.map toString := by
    rw [integerText?, hpresent]
    rfl
  rw [htext, int?_number hn]
  split <;> rfl

/-! ## The literal -/

theorem convert_int (h : IntegerNode pos v node) (b : Binding) :
    convert (.object node) b = contain .absent (Fragment.ofExpr <$> intExpr node) := by
  have hkind : "Int" ∈ Kind.int.tags := by decide
  rw [convert_tagged h.tagged hkind, construct]

/-- A literal with a text is an expression, whatever is bound and whatever was noted before. -/
theorem convert_int_text {text : String} (h : IntegerNode pos v node) (htext : integerText? node = some text)
    (b : Binding) : convert (.object node) b = pure (.ofExpr (.num pos (Text.IntegerLiteral.decimal text))) := by
  have hexpr : intExpr node = pure (.num pos (Text.IntegerLiteral.decimal text)) := by
    rw [intExpr, htext, h.placed]
    rfl
  calc convert (.object node) b
      = contain .absent (Fragment.ofExpr <$> intExpr node) := convert_int h b
    _ = contain .absent (pure (.ofExpr (.num pos (Text.IntegerLiteral.decimal text)))) := by rw [hexpr, map_pure]
    _ = pure (.ofExpr (.num pos (Text.IntegerLiteral.decimal text))) := Attempt.ext fun _ => contain_of_result rfl

/-- A literal without one fails. -/
theorem convert_int_failed (h : IntegerNode pos v node) (htext : integerText? node = none) (b : Binding) (mode : Mode) :
    convert (.object node) b mode = failedNode [] (.malformed "Int" .noInteger pos) mode := by
  have hblame : Fault.of node .noInteger = .malformed "Int" .noInteger pos := by
    rw [Fault.of, tagOrUntagged, h.tagged, h.placed]
    rfl
  have hexpr : Fragment.ofExpr <$> intExpr node = fail (.malformed "Int" .noInteger pos) := by
    rw [intExpr, htext, ← hblame, map_eq_pure_bind]
    simp only [orDefect, fail_bind]
  rw [convert_int h, hexpr]
  exact contain_of_error rfl

/-! ## Main result -/

/-- **An integer as a number and as its numeral.** Take an integer that a document holds, and two literals at one
position, one with the number as its value and one with the decimal numeral. The numeral is always converted to that
numeral, without a note, in any binding and either mode. The number is converted to the same just if a signed 64-bit word
holds it. Otherwise it fails as if no integer were given. -/
theorem convert_integers {numbered written : Node} (hn : (Number.int n).Fits)
    (hnumber : IntegerNode pos (.number (.int n)) numbered)
    (htext : IntegerNode pos (.string (toString n)) written) :
    (∀ b, convert (.object written) b = pure (.ofExpr (.num pos (toString n)))) ∧
    (∀ b b', convert (.object numbered) b = convert (.object written) b' ↔ InWord n) ∧
    (¬ InWord n → ∀ b mode,
      convert (.object numbered) b mode = failedNode [] (.malformed "Int" .noInteger pos) mode) := by
  have hlimit : n < Text.unsignedLimit := Int.lt_of_le_of_lt hn.2 (by decide)
  have hliteral {node : Node} {v : Value} (h : IntegerNode pos v node) (htext : integerText? node = some (toString n))
      (b : Binding) : convert (.object node) b = pure (.ofExpr (.num pos (toString n))) := by
    rw [convert_int_text h htext, decimal_toString hlimit]
  have hwritten := hliteral htext (integerText?_numeral htext.held)
  have hnone (hword : ¬ InWord n) : integerText? numbered = none := by
    rw [integerText?_number hn hnumber.held, if_neg hword]
  refine ⟨hwritten, fun b b' => ⟨fun hsame => ?_, fun hword => ?_⟩, fun hword b mode => ?_⟩
  · by_contra hword
    -- strict mode is enough to tell them apart: a numeral has a result there, a failure has none
    have hfailed := convert_int_failed hnumber (hnone hword) b .strict
    rw [hsame, hwritten b'] at hfailed
    cases congrArg Outcome.result hfailed
  · have hsome : integerText? numbered = some (toString n) := by
      rw [integerText?_number hn hnumber.held, if_pos hword]
    rw [hliteral hnumber hsome, hwritten]
  · exact convert_int_failed hnumber (hnone hword) b mode

/-- an integer literal at the second column of the first line -/
def literalNode (v : Value) : Node := ⟨some "Int", [("line", .number (.int 1)), ("col", .number (.int 1)), ("value", v)]⟩

theorem integerNode_literalNode (v : Value) : IntegerNode ⟨1, 2⟩ v (literalNode v) := ⟨rfl, rfl, rfl⟩

/-- The least and the greatest number of a signed word are literals in both ways, the greatest number of a document only
as a numeral. -/
theorem convert_integers_extremes :
    ((Number.int (-9223372036854775808)).Fits ∧ InWord (-9223372036854775808) ∧
      convert (.object (literalNode (.number (.int (-9223372036854775808))))) .load =
        pure (.ofExpr (.num ⟨1, 2⟩ "-9223372036854775808")) ∧
      convert (.object (literalNode (.string "-9223372036854775808"))) .load =
        pure (.ofExpr (.num ⟨1, 2⟩ "-9223372036854775808"))) ∧
    ((Number.int 9223372036854775807).Fits ∧ InWord 9223372036854775807 ∧
      convert (.object (literalNode (.number (.int 9223372036854775807)))) .load =
        pure (.ofExpr (.num ⟨1, 2⟩ "9223372036854775807")) ∧
      convert (.object (literalNode (.string "9223372036854775807"))) .load =
        pure (.ofExpr (.num ⟨1, 2⟩ "9223372036854775807"))) ∧
    (Number.int 18446744073709551615).Fits ∧ ¬ InWord 18446744073709551615 ∧
      convert (.object (literalNode (.number (.int 18446744073709551615)))) .load .permissive =
        ⟨[.malformed "Int" .noInteger ⟨1, 2⟩], .ok .absent⟩ ∧
      convert (.object (literalNode (.string "18446744073709551615"))) .load =
        pure (.ofExpr (.num ⟨1, 2⟩ "18446744073709551615")) := by
  have hleastFits : (Number.int (-9223372036854775808)).Fits := ⟨by decide, by decide⟩
  have hgreatestFits : (Number.int 9223372036854775807).Fits := ⟨by decide, by decide⟩
  have hbeyondFits : (Number.int 18446744073709551615).Fits := ⟨by decide, by decide⟩
  have hleastWord : InWord (-9223372036854775808) := by decide
  have hgreatestWord : InWord 9223372036854775807 := by decide
  have hbeyondWord : ¬ InWord 18446744073709551615 := by decide
  obtain ⟨hleast, hleastSame, -⟩ :=
    convert_integers hleastFits (integerNode_literalNode _) (integerNode_literalNode _)
  obtain ⟨hgreatest, hgreatestSame, -⟩ :=
    convert_integers hgreatestFits (integerNode_literalNode _) (integerNode_literalNode _)
  obtain ⟨hbeyond, -, hfailed⟩ :=
    convert_integers hbeyondFits (integerNode_literalNode _) (integerNode_literalNode _)
  refine ⟨⟨hleastFits, hleastWord, ?_, hleast .load⟩, ⟨hgreatestFits, hgreatestWord, ?_, hgreatest .load⟩,
    hbeyondFits, hbeyondWord, hfailed hbeyondWord .load .permissive, hbeyond .load⟩
  · exact ((hleastSame .load .load).2 hleastWord).trans (hleast .load)
  · exact ((hgreatestSame .load .load).2 hgreatestWord).trans (hgreatest .load)

/-- The least number beyond a signed word is held by a document and is a literal as a numeral; as a number it gives no
expression, in neither mode. -/
theorem unsigned_literal_differs :
    (Number.int 9223372036854775808).Fits ∧
    IntegerNode ⟨1, 2⟩ (.number (.int 9223372036854775808)) (literalNode (.number (.int 9223372036854775808))) ∧
    IntegerNode ⟨1, 2⟩ (.string (toString (9223372036854775808 : Int))) (literalNode (.string "9223372036854775808")) ∧
    (∀ mode, convert (.object (literalNode (.string "9223372036854775808"))) .load mode =
      ⟨[], .ok (.ofExpr (.num ⟨1, 2⟩ "9223372036854775808"))⟩) ∧
    convert (.object (literalNode (.number (.int 9223372036854775808)))) .load .permissive =
      ⟨[.malformed "Int" .noInteger ⟨1, 2⟩], .ok .absent⟩ ∧
    convert (.object (literalNode (.number (.int 9223372036854775808)))) .load .strict =
      ⟨[], .error (.malformed "Int" .noInteger ⟨1, 2⟩)⟩ ∧
    ¬ ∃ mode e, (convert (.object (literalNode (.number (.int 9223372036854775808)))) .load mode).result =
      .ok (.ofExpr e) := by
  refine ⟨⟨by decide, by decide⟩, integerNode_literalNode _, integerNode_literalNode _, ?_, rfl, rfl, ?_⟩
  · intro mode
    cases mode <;> rfl
  · rintro ⟨mode, e, he⟩
    cases mode <;> cases he

end Graft.Convert
