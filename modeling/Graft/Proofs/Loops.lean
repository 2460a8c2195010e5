/-
The `else` blocks of the two loops.

A `while` takes its `else` block like any list of statements. A `for` takes it only from a node: a statement list is opened
and keeps its position, and any other node is converted as it stands. Everything else in that field is passed over without
a note, and a comparison link that a statement list holds is blamed on the loop and not on the list.

`GivesLoop` says what a conversion shows of the block. `outcome_for` and `outcome_while` reduce a loop whose other parts
are sound (`SoundFor`, `SoundWhile`) to the conversion of its block, and one lemma for each sort of block compares the two.

- `convert_loops`: two sound loops with the same `else` block have the same statements there, and notes in one exactly if
  there are in the other, or both are dropped; unless a `for` passes something over or is dropped for a link.
- `overlooked_else_differs`: a list of one statement is the block of a `while`, and none of a `for`.
-/
import Graft.Proofs.Bracketing

namespace Graft.Convert

open Graft.Document Attempt

/-- What is no chain of links comes to statements, whoever owns it. -/
theorem Fragment.Free.stmts_ok {fragment : Fragment} (h : fragment.Free) (owner : Node) :
    ∃ body, fragment.stmts owner = .ok body := by
  obtain ⟨ps, hps⟩ := h.pieces_ok owner
  exact ⟨ps.map Piece.toStmt, by rw [Fragment.stmts, hps]; rfl⟩

/-! ## What a loop shows of its block -/

/-- the statements of a block, none where there is no block -/
def blockStmts : Option Suite → List Stmt
  | none => []
  | some block => block.body

/-- the statements of the `else` block of a loop -/
def loopElse? : Stmt → Option (List Stmt)
  | .whileLoop _ _ _ orelse => some (blockStmts orelse)
  | .forLoop _ _ _ _ orelse _ => some (blockStmts orelse)
  | _ => none

/-- a loop with these statements in its `else` block comes of it, with these notes -/
def GivesLoop (o : Outcome Fragment) (notes : List Fault) (orelse : List Stmt) : Prop :=
  ∃ s, o = ⟨notes, .ok (.ofStmt s)⟩ ∧ loopElse? s = some orelse

/-- nothing comes of it, with these notes -/
def Dropped (o : Outcome Fragment) (notes : List Fault) : Prop := o = ⟨notes, .ok .absent⟩

/-- both are loops with the same statements in their `else` blocks, of which both are noted or none is; or both are
dropped -/
inductive ElseAlike (o o' : Outcome Fragment) : Prop where
  | loops {notes notes' : List Fault} {orelse : List Stmt} : GivesLoop o notes orelse → GivesLoop o' notes' orelse →
      (notes = [] ↔ notes' = []) → ElseAlike o o'
  | dropped {notes notes' : List Fault} : Dropped o notes → Dropped o' notes' → ElseAlike o o'

theorem not_dropped {o : Outcome Fragment} {notes notes' : List Fault} {orelse : List Stmt}
    (h : GivesLoop o notes orelse) : ¬ Dropped o notes' := by
  obtain ⟨s, ho, -⟩ := h
  rintro hdropped
  rw [ho] at hdropped
  cases hdropped

theorem GivesLoop.unique {o : Outcome Fragment} {notes notes' : List Fault} {orelse orelse' : List Stmt}
    (h : GivesLoop o notes orelse) (h' : GivesLoop o notes' orelse') : notes = notes' ∧ orelse = orelse' := by
  obtain ⟨s, ho, hs⟩ := h
  obtain ⟨s', ho', hs'⟩ := h'
  rw [ho] at ho'
  cases ho'
  exact ⟨rfl, Option.some.inj (hs.symm.trans hs')⟩

/-! ## Loops that are sound but for their block -/

/-- a `while` whose condition and body are converted without a note -/
structure SoundWhile (n : Node) : Prop where
  tag : n.tag = some "WhileStat"
  test : ∃ test, requiredExpr convert n "condition" .load .permissive = ⟨[], .ok test⟩
  body : ∃ body, stmtsField convert n "body" .permissive = ⟨[], .ok body⟩

/-- a `for`, of either sort, whose target, iterated expression and body are converted without a note -/
structure SoundFor (n : Node) : Prop where
  tag : n.tag = some "ForInStat" ∨ n.tag = some "AsyncForStat"
  target : ∃ target, requiredExpr convert n "target" .store .permissive = ⟨[], .ok target⟩
  iter : ∃ iterator iter, n.node? "iterator" = some iterator ∧
    requiredExpr convert iterator "sequence" .load .permissive = ⟨[], .ok iter⟩
  body : ∃ body, stmtsField convert n "body" .permissive = ⟨[], .ok body⟩

theorem outcome_ofExcept {α : Type} (r : Except Fault α) (mode : Mode) : Attempt.ofExcept r mode = ⟨[], r⟩ := by
  cases r <;> rfl

/-- What is converted without a note goes on with its result. -/
theorem outcome_silent {α β : Type} {x : Attempt α} {a : α} (h : x .permissive = ⟨[], .ok a⟩) (f : α → Attempt β) :
    (x >>= f) .permissive = f a .permissive := by
  rw [outcome_bind, h]
  simp

/-- the `else` block of a `for` -/
def elseOfFor (n : Node) : Attempt (Option Suite) :=
  match n.node? "else_clause" with
  | some clause => forElse convert clause
  | none => pure none

/-- What comes of a last part makes a statement, or the statement is dropped. -/
theorem outcome_last {α : Type} (x : Attempt α) (make : α → Stmt) :
    contain .absent ((fun a => Fragment.ofStmt (make a)) <$> x) .permissive =
      match (x .permissive).result with
      | .ok a => ⟨(x .permissive).notes, .ok (.ofStmt (make a))⟩
      | .error fault => ⟨(x .permissive).notes ++ [fault], .ok .absent⟩ := by
  rw [outcome_contain, map_eq_pure_bind, outcome_bind]
  cases (x .permissive).result with
  | error fault => rfl
  | ok a => simp [Outcome.after]

/-- A sound `while` is its condition and its body with what comes of its block. -/
theorem outcome_while {w : Node} (h : SoundWhile w) (b : Binding) :
    ∃ make : List Stmt → Stmt, (∀ orelse, loopElse? (make orelse) = some orelse) ∧
      convert (.object w) b .permissive =
        contain .absent ((fun orelse => Fragment.ofStmt (make orelse)) <$> stmtsField convert w "else_clause")
          .permissive := by
  obtain ⟨test, htest⟩ := h.test
  obtain ⟨body, hbody⟩ := h.body
  have hkind : w.tag.bind Kind.ofTag? = some .whileStat := by rw [h.tag]; decide
  refine ⟨fun orelse => .whileLoop (positionOf w) test body (filledSuite orelse), fun orelse => ?_, ?_⟩
  · cases orelse <;> rfl
  · have hparts : (Fragment.ofStmt <$> whileStmt convert w) .permissive =
        ((fun orelse => Fragment.ofStmt (.whileLoop (positionOf w) test body (filledSuite orelse))) <$>
          stmtsField convert w "else_clause") .permissive := by
      simp only [whileStmt, map_eq_pure_bind, bind_assoc, pure_bind]
      rw [outcome_silent htest, outcome_silent hbody]
    rw [convert_object, convertNode_kind convert hkind, construct, outcome_contain, outcome_contain, hparts]

/-- A sound `for` is its other parts with what comes of its block. -/
theorem outcome_for {f : Node} (h : SoundFor f) (b : Binding) :
    ∃ make : Option Suite → Stmt, (∀ orelse, loopElse? (make orelse) = some (blockStmts orelse)) ∧
      convert (.object f) b .permissive =
        contain .absent ((fun orelse => Fragment.ofStmt (make orelse)) <$> elseOfFor f) .permissive := by
  obtain ⟨target, htarget⟩ := h.target
  obtain ⟨iterator, iter, hiterator, hiter⟩ := h.iter
  obtain ⟨body, hbody⟩ := h.body
  have hparts (isAsync : Bool) : (Fragment.ofStmt <$> forStmt convert isAsync f) .permissive =
      ((fun orelse => Fragment.ofStmt
        (.forLoop (positionOf f) target iter body orelse (isAsync || f.flag "is_async"))) <$> elseOfFor f)
          .permissive := by
    simp only [forStmt, map_eq_pure_bind, bind_assoc, pure_bind]
    rw [outcome_silent htarget, hiterator]
    simp only [orDefect, pure_bind]
    rw [outcome_silent hiter, outcome_silent hbody]
    unfold elseOfFor
    cases f.node? "else_clause" <;> simp
  obtain ⟨isAsync, hconvert⟩ : ∃ isAsync : Bool,
      convert (.object f) b = contain .absent (Fragment.ofStmt <$> forStmt convert isAsync f) := by
    rcases h.tag with htag | htag
    · have hkind : f.tag.bind Kind.ofTag? = some .forInStat := by rw [htag]; decide
      exact ⟨false, by rw [convert_object, convertNode_kind convert hkind, construct]⟩
    · have hkind : f.tag.bind Kind.ofTag? = some .asyncForStat := by rw [htag]; decide
      exact ⟨true, by rw [convert_object, convertNode_kind convert hkind, construct]⟩
  refine ⟨fun orelse => .forLoop (positionOf f) target iter body orelse (isAsync || f.flag "is_async"), fun _ => rfl, ?_⟩
  rw [hconvert, outcome_contain, outcome_contain, hparts]

section Loop

variable {f w : Node} {notes : List Fault} {fault : Fault}

theorem givesLoop_while (h : SoundWhile w) (b : Binding) {orelse : List Stmt}
    (helse : stmtsField convert w "else_clause" .permissive = ⟨notes, .ok orelse⟩) :
    GivesLoop (convert (.object w) b .permissive) notes orelse := by
  obtain ⟨make, hmake, hconvert⟩ := outcome_while h b
  rw [hconvert, outcome_last, helse]
  exact ⟨_, rfl, hmake orelse⟩

theorem dropped_while (h : SoundWhile w) (b : Binding)
    (helse : stmtsField convert w "else_clause" .permissive = ⟨notes, .error fault⟩) :
    Dropped (convert (.object w) b .permissive) (notes ++ [fault]) := by
  obtain ⟨make, -, hconvert⟩ := outcome_while h b
  rw [hconvert, outcome_last, helse]
  rfl

theorem givesLoop_for (h : SoundFor f) (b : Binding) {orelse : Option Suite}
    (helse : elseOfFor f .permissive = ⟨notes, .ok orelse⟩) :
    GivesLoop (convert (.object f) b .permissive) notes (blockStmts orelse) := by
  obtain ⟨make, hmake, hconvert⟩ := outcome_for h b
  rw [hconvert, outcome_last, helse]
  exact ⟨_, rfl, hmake orelse⟩

theorem dropped_for (h : SoundFor f) (b : Binding)
    (helse : elseOfFor f .permissive = ⟨notes, .error fault⟩) :
    Dropped (convert (.object f) b .permissive) (notes ++ [fault]) := by
  obtain ⟨make, -, hconvert⟩ := outcome_for h b
  rw [hconvert, outcome_last, helse]
  rfl

/-! ## The sorts of block -/

/-- Blocks that come to the same statements, or that both fail, with the same notes. -/
theorem alike_blocks (hf : SoundFor f) (hw : SoundWhile w) (b b' : Binding) {r : Except Fault (Option Suite)}
    {r' : Except Fault (List Stmt)} (hfor : elseOfFor f .permissive = ⟨notes, r⟩)
    (hwhile : stmtsField convert w "else_clause" .permissive = ⟨notes, r'⟩)
    (hblocks : (∃ orelse, r = .ok orelse ∧ r' = .ok (blockStmts orelse)) ∨
      ∃ fault fault', r = .error fault ∧ r' = .error fault') :
    ElseAlike (convert (.object f) b .permissive) (convert (.object w) b' .permissive) := by
  obtain ⟨orelse, rfl, rfl⟩ | ⟨fault, fault', rfl, rfl⟩ := hblocks
  · exact .loops (givesLoop_for hf b hfor) (givesLoop_while hw b' hwhile) Iff.rfl
  · exact .dropped (dropped_for hf b hfor) (dropped_while hw b' hwhile)

theorem stmtsField_statements {v : Value} (hget : w.get? "else_clause" = some v) :
    stmtsField convert w "else_clause" = statements w v := by
  rw [stmtsField, field, hget]
  rfl

/-- The statements of a value are those of its fragment. -/
theorem outcome_statements {v : Value} {fragment : Fragment}
    (h : convert v .load .permissive = ⟨notes, .ok fragment⟩) (owner : Node) :
    statements owner v .permissive = ⟨notes, fragment.stmts owner⟩ := by
  show (convert v .load >>= fun f => Attempt.ofExcept (f.stmts owner)) .permissive = _
  simp only [outcome_bind, h, outcome_ofExcept]
  simp [Outcome.after]

theorem blockStmts_filledSuite (body : List Stmt) : blockStmts (filledSuite body) = body := by
  cases body <;> rfl

/-- There is no block, in either loop. -/
theorem alike_nothing (hf : SoundFor f) (hw : SoundWhile w) (b b' : Binding)
    (hnode : f.node? "else_clause" = none) (hnothing : w.present? "else_clause" = none) :
    ElseAlike (convert (.object f) b .permissive) (convert (.object w) b' .permissive) := by
  have hfor : elseOfFor f = pure none := by rw [elseOfFor, hnode]
  have hwhile : stmtsField convert w "else_clause" = pure [] := by
    rw [stmtsField, field_nothing hnothing]
    rfl
  exact alike_blocks hf hw b b' (by rw [hfor]; rfl) (by rw [hwhile]; rfl) (.inl ⟨none, rfl, rfl⟩)

/-- What is no node is passed over by a `for`. -/
theorem givesLoop_passedOver (hf : SoundFor f) (b : Binding) (hnode : f.node? "else_clause" = none) :
    GivesLoop (convert (.object f) b .permissive) [] [] := by
  have helse : elseOfFor f .permissive = ⟨[], .ok none⟩ := by
    rw [elseOfFor, hnode]
    rfl
  exact givesLoop_for hf b helse

/-- A node that is no statement list is converted as it stands; only links do not fit, which drop either loop. -/
theorem alike_other (hf : SoundFor f) (hw : SoundWhile w) (b b' : Binding) {clause : Node}
    (hget : f.get? "else_clause" = some (.object clause)) (hget' : w.get? "else_clause" = some (.object clause))
    (htag : clause.isTagged statListTag = false) :
    ElseAlike (convert (.object f) b .permissive) (convert (.object w) b' .permissive) := by
  obtain ⟨notes, fragment, hconvert⟩ := (lenient_convert (.object clause) .load).outcome
  have hfor : elseOfFor f .permissive = ⟨notes, (fragment.stmts clause).map filledSuite⟩ := by
    have helse : elseOfFor f = filledSuite <$> statements clause (.object clause) := by
      rw [elseOfFor, Node.node?_eq_some.2 hget, map_eq_pure_bind, statements, bind_assoc]
      simp [forElse, htag]
    rw [helse, map_eq_pure_bind, outcome_bind, outcome_statements hconvert]
    cases fragment.stmts clause <;> simp [Outcome.after, Except.map]
  have hwhile := outcome_statements hconvert w
  rw [← stmtsField_statements hget'] at hwhile
  refine alike_blocks hf hw b b' hfor hwhile ?_
  by_cases hfree : fragment.Free
  · obtain ⟨body, hbody⟩ := hfree.stmts_ok w
    refine .inl ⟨filledSuite body, ?_, by rw [blockStmts_filledSuite, hbody]⟩
    rw [hfree.stmts_owner clause w, hbody]
    rfl
  · unfold Fragment.Free at hfree
    push Not at hfree
    obtain ⟨first, rest, rfl⟩ := hfree
    exact .inr ⟨_, _, rfl, rfl⟩

theorem lenient_field (n : Node) (name : String) (b : Binding) : Lenient (field convert n name b) := by
  unfold field
  cases n.get? name with
  | none => exact lenient_pure _
  | some v => exact lenient_convert v b

/-- What a `for` makes of a statement list. -/
theorem elseOfFor_list {clause : Node} (hget : f.get? "else_clause" = some (.object clause))
    (htag : clause.isTagged statListTag = true) {fragment : Fragment}
    (hfield : field convert clause "stats" .load .permissive = ⟨notes, .ok fragment⟩) :
    elseOfFor f .permissive = ⟨notes, (fragment.stmts clause).map fun body => some ⟨body, positionOf clause⟩⟩ := by
  have helse : elseOfFor f = field convert clause "stats" .load >>= fun fragment =>
      Attempt.ofExcept (fragment.stmts clause) >>= fun body => pure (some ⟨body, positionOf clause⟩) := by
    rw [elseOfFor, Node.node?_eq_some.2 hget]
    simp only [forElse, htag, if_true, stmtsField, bind_assoc]
    rfl
  simp only [helse, outcome_bind, hfield, outcome_ofExcept]
  cases fragment.stmts clause <;> simp [Outcome.after, Except.map]

theorem groupField_list {clause : Node} (htag : clause.isTagged statListTag = true) :
    clause.tag.bind groupField? = some "stats" := by
  obtain htag : clause.tag = some statListTag := beq_iff_eq.1 htag
  rw [htag]
  rfl

/-- A statement list of anything but links comes to the same statements in both loops. -/
theorem alike_list_of_free (hf : SoundFor f) (hw : SoundWhile w) (b b' : Binding) {clause : Node}
    (hget : f.get? "else_clause" = some (.object clause)) (hget' : w.get? "else_clause" = some (.object clause))
    (htag : clause.isTagged statListTag = true) {fragment : Fragment} (hfree : fragment.Free)
    (hfield : field convert clause "stats" .load .permissive = ⟨notes, .ok fragment⟩) :
    ElseAlike (convert (.object f) b .permissive) (convert (.object w) b' .permissive) := by
  have hwhile : stmtsField convert w "else_clause" .permissive = ⟨notes, fragment.stmts clause⟩ := by
    rw [stmtsField_statements hget', statements_group (groupField_list htag) (lenient_field clause "stats" .load)
      (fun other hother => by rw [hfield] at hother; cases hother; exact hfree) w]
    simp only [outcome_bind, hfield, outcome_ofExcept]
    simp [Outcome.after]
  obtain ⟨body, hbody⟩ := hfree.stmts_ok clause
  have hfor := elseOfFor_list hget htag hfield
  rw [hbody] at hfor hwhile
  exact alike_blocks hf hw b b' hfor hwhile (.inl ⟨_, rfl, rfl⟩)

/-- The links that a statement list holds drop a `for`; a `while` is left without a block. -/
theorem drops_linked (hf : SoundFor f) (hw : SoundWhile w) (b b' : Binding) {clause : Node}
    (hget : f.get? "else_clause" = some (.object clause)) (hget' : w.get? "else_clause" = some (.object clause))
    (htag : clause.isTagged statListTag = true) {first : Link} {rest : List Link}
    (hfield : field convert clause "stats" .load .permissive = ⟨notes, .ok (.chain first rest)⟩) :
    Dropped (convert (.object f) b .permissive) (notes ++ [.of clause .linkOutside]) ∧
      GivesLoop (convert (.object w) b' .permissive) (notes ++ [.of clause .linkOutside]) [] := by
  refine ⟨dropped_for hf b (elseOfFor_list hget htag hfield), givesLoop_while hw b' ?_⟩
  obtain ⟨g, -, hconvert⟩ := convert_group (groupField_list htag) .load
  have hgroup : convert (.object clause) .load .permissive = ⟨notes ++ [.of clause .linkOutside], .ok .absent⟩ := by
    simp only [hconvert, outcome_contain, spread, map_eq_pure_bind, outcome_bind, hfield, outcome_ofExcept]
    simp [Fragment.pieces, Outcome.after]
  rw [stmtsField_statements hget', outcome_statements hgroup w]
  rfl

end Loop

/-! ## Main results -/

/-- a value that is no node, and of which statements or notes come -/
def PassedOver (v : Value) : Prop :=
  v.node? = none ∧ v.isAbsent = false ∧ convert v .load .permissive ≠ ⟨[], .ok (.group [])⟩

/-- a statement list that holds links of a comparison, and nothing else -/
def HoldsLinks (v : Value) : Prop :=
  ∃ clause, v = .object clause ∧ clause.isTagged statListTag = true ∧
    ∃ first rest, (field convert clause "stats" .load .permissive).result = .ok (.chain first rest)

/-- What is no node converts to a group, or to nothing with a note. -/
theorem outcome_notANode {v : Value} (hnode : v.node? = none) (habsent : v.isAbsent = false) :
    (∃ notes ps, convert v .load .permissive = ⟨notes, .ok (.group ps)⟩) ∨
      ∃ fault, convert v .load .permissive = ⟨[fault], .ok .absent⟩ := by
  cases hitems : v.items? with
  | some items =>
    cases v <;> cases hitems
    obtain ⟨notes, fragment, hconvert⟩ := (lenient_convert (.array items) .load).outcome
    have hgroup : ∃ ps, fragment = .group ps := by
      rw [convert_items] at hconvert
      exact yields_map (P := fun f => ∃ ps, f = Fragment.group ps) (fun ps => ⟨ps, rfl⟩) .permissive fragment
        (by rw [hconvert])
    obtain ⟨ps, rfl⟩ := hgroup
    exact .inl ⟨notes, ps, hconvert⟩
  | none =>
    obtain ⟨depth, hdepth⟩ := Nat.exists_eq_add_one.2 (depth_pos v)
    refine .inr ⟨.malformed v.kindName (.notANode v.kindName) .unknown, ?_⟩
    rw [convert, hdepth, convertWithin_stray depth habsent hnode hitems, outcome_contain]
    rfl

/-- A `while` has what a `for` passes over: the statements of a list with its notes, or the note of a value that is out of
place. -/
theorem gives_passedOver {w : Node} (hw : SoundWhile w) (b : Binding) {v : Value} (hget : w.get? "else_clause" = some v)
    (hv : PassedOver v) :
    ∃ notes orelse, GivesLoop (convert (.object w) b .permissive) notes orelse ∧ ¬ (notes = [] ∧ orelse = []) := by
  obtain ⟨hnode, habsent, hsomething⟩ := hv
  obtain ⟨notes, ps, hconvert⟩ | ⟨fault, hconvert⟩ := outcome_notANode hnode habsent
  · have helse := outcome_statements hconvert w
    rw [← stmtsField_statements hget] at helse
    refine ⟨notes, ps.map Piece.toStmt, givesLoop_while hw b helse, ?_⟩
    rintro ⟨rfl, hps⟩
    rw [List.map_eq_nil_iff.1 hps] at hconvert
    exact hsomething hconvert
  · have helse := outcome_statements hconvert w
    rw [← stmtsField_statements hget] at helse
    exact ⟨[fault], [], givesLoop_while hw b helse, fun h => by cases h.1⟩

/-- Any other block is taken alike. -/
theorem alike_of_taken {f w : Node} (hf : SoundFor f) (hw : SoundWhile w) (b b' : Binding)
    (hsame : f.get? "else_clause" = w.get? "else_clause")
    (htaken : ∀ v, f.get? "else_clause" = some v → ¬ PassedOver v ∧ ¬ HoldsLinks v) :
    ElseAlike (convert (.object f) b .permissive) (convert (.object w) b' .permissive) := by
  cases hget : f.get? "else_clause" with
  | none =>
    refine alike_nothing hf hw b b' (by simp [Node.node?, hget]) ?_
    simp [Node.present?, ← hsame, hget]
  | some v =>
    have hget' : w.get? "else_clause" = some v := hsame ▸ hget
    obtain ⟨hpassed, hlinks⟩ := htaken v hget
    cases hnode : v.node? with
    | some clause =>
      obtain rfl : v = .object clause := by cases v <;> cases hnode; rfl
      cases htag : clause.isTagged statListTag with
      | false => exact alike_other hf hw b b' hget hget' htag
      | true =>
        obtain ⟨notes, fragment, hfield⟩ := (lenient_field clause "stats" .load).outcome
        refine alike_list_of_free hf hw b b' hget hget' htag (fun first rest hchain => hlinks ?_) hfield
        exact ⟨clause, rfl, htag, first, rest, by rw [hfield, hchain]⟩
    | none =>
      have hfor : f.node? "else_clause" = none := by simp [Node.node?, hget, hnode]
      cases habsent : v.isAbsent with
      | true => exact alike_nothing hf hw b b' hfor (by simp [Node.present?, hget', Option.filter, habsent])
      | false =>
        have hconvert : convert v .load .permissive = ⟨[], .ok (.group [])⟩ :=
          not_not.1 fun hsomething => hpassed ⟨hnode, habsent, hsomething⟩
        have helse := outcome_statements hconvert w
        rw [← stmtsField_statements hget'] at helse
        exact .loops (givesLoop_passedOver hf b hfor) (givesLoop_while hw b' helse) Iff.rfl

/-- **The `else` blocks of the two loops.** Take a `for`, of either sort, and a `while` that have the same in their field
for the `else` block, and whose other parts are converted without a note. In permissive mode:
- both are loops with the same statements in their `else` blocks, with notes for both or for neither, or both are dropped;
  unless the `for` passes the block over or the block is a list of links;
- a `for` passes over everything that is no node, as if nothing were there, where a `while` has statements or notes;
- links in a statement list drop a `for`, where a `while` is left without a block. -/
theorem convert_loops {f w : Node} (hf : SoundFor f) (hw : SoundWhile w)
    (hsame : f.get? "else_clause" = w.get? "else_clause") (b b' : Binding) :
    (ElseAlike (convert (.object f) b .permissive) (convert (.object w) b' .permissive) ↔
      ∀ v, f.get? "else_clause" = some v → ¬ PassedOver v ∧ ¬ HoldsLinks v) ∧
    (∀ v, f.get? "else_clause" = some v → PassedOver v →
      GivesLoop (convert (.object f) b .permissive) [] [] ∧
      ∃ notes orelse, GivesLoop (convert (.object w) b' .permissive) notes orelse ∧ ¬ (notes = [] ∧ orelse = [])) ∧
    ∀ v, f.get? "else_clause" = some v → HoldsLinks v →
      ∃ notes, notes ≠ [] ∧ Dropped (convert (.object f) b .permissive) notes ∧
        GivesLoop (convert (.object w) b' .permissive) notes [] := by
  have hpassed : ∀ v, f.get? "else_clause" = some v → PassedOver v →
      GivesLoop (convert (.object f) b .permissive) [] [] ∧
      ∃ notes orelse, GivesLoop (convert (.object w) b' .permissive) notes orelse ∧ ¬ (notes = [] ∧ orelse = []) := by
    intro v hget hv
    refine ⟨givesLoop_passedOver hf b (by simp [Node.node?, hget, hv.1]), ?_⟩
    exact gives_passedOver hw b' (hsame ▸ hget) hv
  have hlinked : ∀ v, f.get? "else_clause" = some v → HoldsLinks v →
      ∃ notes, notes ≠ [] ∧ Dropped (convert (.object f) b .permissive) notes ∧
        GivesLoop (convert (.object w) b' .permissive) notes [] := by
    rintro v hget ⟨clause, rfl, htag, first, rest, hchain⟩
    obtain ⟨notes, fragment, hfield⟩ := (lenient_field clause "stats" .load).outcome
    obtain rfl : fragment = .chain first rest := by rw [hfield] at hchain; exact Except.ok.inj hchain
    exact ⟨notes ++ [.of clause .linkOutside], by simp, drops_linked hf hw b b' hget (hsame ▸ hget) htag hfield⟩
  refine ⟨⟨fun halike v hget => ⟨fun hv => ?_, fun hv => ?_⟩, alike_of_taken hf hw b b' hsame⟩, hpassed, hlinked⟩
  · obtain ⟨hfor, notes, orelse, hwhile, hsomething⟩ := hpassed v hget hv
    cases halike with
    | loops h h' hnotes =>
      obtain ⟨rfl, rfl⟩ := hfor.unique h
      obtain ⟨rfl, rfl⟩ := hwhile.unique h'
      exact hsomething ⟨hnotes.1 rfl, rfl⟩
    | dropped h => exact not_dropped hfor h
  · obtain ⟨notes, -, hfor, hwhile⟩ := hlinked v hget hv
    cases halike with
    | loops h => exact not_dropped h hfor
    | dropped _ h => exact not_dropped hwhile h

/-- a statement that does nothing -/
def passNode : Value := .object ⟨some "PassStat", []⟩

/-- `for a in b: pass`, with a value as its `else` block -/
def forWith (orelse : Value) : Node :=
  ⟨some "ForInStat", [("target", nameNode "a"), ("iterator", .object ⟨some "Iterator", [("sequence", nameNode "b")]⟩),
    ("body", passNode), ("else_clause", orelse)]⟩

/-- `while a: pass`, with a value as its `else` block -/
def whileWith (orelse : Value) : Node :=
  ⟨some "WhileStat", [("condition", nameNode "a"), ("body", passNode), ("else_clause", orelse)]⟩

/-- A statement list is the block of either loop. -/
theorem convert_loops_listed :
    SoundFor (forWith (groupOf "StatList" "stats" (.array [passNode]))) ∧
    SoundWhile (whileWith (groupOf "StatList" "stats" (.array [passNode]))) ∧
    (forWith (groupOf "StatList" "stats" (.array [passNode]))).get? "else_clause" =
      (whileWith (groupOf "StatList" "stats" (.array [passNode]))).get? "else_clause" ∧
    ElseAlike (convert (.object (forWith (groupOf "StatList" "stats" (.array [passNode])))) .load .permissive)
      (convert (.object (whileWith (groupOf "StatList" "stats" (.array [passNode])))) .load .permissive) := by
  have hfor : SoundFor (forWith (groupOf "StatList" "stats" (.array [passNode]))) :=
    ⟨.inl rfl, ⟨_, rfl⟩, ⟨_, _, rfl, rfl⟩, ⟨_, rfl⟩⟩
  have hwhile : SoundWhile (whileWith (groupOf "StatList" "stats" (.array [passNode]))) :=
    ⟨rfl, ⟨_, rfl⟩, ⟨_, rfl⟩⟩
  refine ⟨hfor, hwhile, rfl, (convert_loops hfor hwhile rfl .load .load).1.2 fun v hv => ?_⟩
  cases hv
  constructor
  · rintro ⟨hnode, -⟩
    cases hnode
  · rintro ⟨clause, hclause, -, first, rest, hchain⟩
    cases hclause
    cases hchain

/-- A list of one statement is the block of a `while`, and the `for` has none and notes nothing. -/
theorem overlooked_else_differs :
    SoundFor (forWith (.array [passNode])) ∧ SoundWhile (whileWith (.array [passNode])) ∧
    GivesLoop (convert (.object (forWith (.array [passNode]))) .load .permissive) [] [] ∧
    GivesLoop (convert (.object (whileWith (.array [passNode]))) .load .permissive) [] [.pass .unknown] ∧
    ¬ ElseAlike (convert (.object (forWith (.array [passNode]))) .load .permissive)
      (convert (.object (whileWith (.array [passNode]))) .load .permissive) := by
  have hfor : GivesLoop (convert (.object (forWith (.array [passNode]))) .load .permissive) [] [] := ⟨_, rfl, rfl⟩
  have hwhile : GivesLoop (convert (.object (whileWith (.array [passNode]))) .load .permissive) [] [.pass .unknown] :=
    ⟨_, rfl, rfl⟩
  refine ⟨⟨.inl rfl, ⟨_, rfl⟩, ⟨_, _, rfl, rfl⟩, ⟨_, rfl⟩⟩, ⟨rfl, ⟨_, rfl⟩, ⟨_, rfl⟩⟩, hfor, hwhile, fun h => ?_⟩
  cases h with
  | loops h h' =>
    obtain ⟨-, rfl⟩ := hfor.unique h
    cases (hwhile.unique h').2
  | dropped h => exact not_dropped hfor h

end Graft.Convert
