/-
A rendering tells trees apart.

- `Module.render_faithful`: two modules in which no identifier, number text or string text has a bracket or a comma are
  rendered alike exactly when they are structurally equal with positions ignored.

Two nodes with legible texts are rendered alike exactly when they have the same label and the same members
(`Expr.render_inj`), since both are read off the rendering. What a member shows is a name, of which each thing has its
own, a text as it stands, or the renderings of parts. So two trees are rendered alike exactly when they agree, by
induction on one of them, one case for each constructor (`Expr.render_iff`).
-/
import Graft.Proofs.Compared
import Graft.Proofs.Rendered

namespace Graft

open Subtree

/-! ## Names and flags -/

theorem boolText_inj {a b : Bool} : boolText a = boolText b ↔ a = b := by
  cases a <;> cases b <;> decide

/-- A name that can be read back names one thing only. -/
theorem injective_of_read {α : Type} {name : α → String} {read : String → Option α} (h : ∀ a, read (name a) = some a) :
    Function.Injective name := by
  intro a b hname
  have hread := congrArg read hname
  rwa [h, h, Option.some.injEq] at hread

theorem Binding.name_inj {b c : Binding} : b.name = c.name ↔ b = c := (injective_of_read ofName?_name).eq_iff

theorem Role.name_inj {r s : Role} : r.name = s.name ↔ r = s := (injective_of_read ofName?_name).eq_iff

theorem BinaryOp.name_inj {o p : BinaryOp} : o.name = p.name ↔ o = p := (injective_of_read ofName?_name).eq_iff

theorem BoolOp.name_inj {o p : BoolOp} : o.name = p.name ↔ o = p := (injective_of_read ofName?_name).eq_iff

theorem CompareOp.names_inj {os ps : List CompareOp} :
    bracketed (os.map name) = bracketed (ps.map name) ↔ os = ps := by
  rw [bracketed_inj (items_compareOps os) (items_compareOps ps)]
  exact List.map_inj_right fun o p => (injective_of_read ofName?_name).eq_iff.1

/-! ## Labels and members are read off -/

theorem NameToken.render_iff {t u : NameToken} (ht : Clear t.id) (hu : Clear u.id) :
    t.render = u.render ↔ t.agrees .ignore u = true := by
  rw [render_eq, render_eq, enclosed_inj (by decide) (by decide) (items ht) (items hu)]
  simp [members, agrees, Role.name_inj]

theorem Expr.render_inj {x y : Expr} (hx : Legible (expr x)) (hy : Legible (expr y)) :
    x.render = y.render ↔ x.label = y.label ∧ x.members = y.members := by
  rw [render_eq, render_eq, enclosed_inj x.clear_label y.clear_label (x.items hx) (y.items hy)]

theorem Keyword.render_inj {k l : Keyword} (hk : Legible (keyword k)) (hl : Legible (keyword l)) :
    k.render = l.render ↔ k.members = l.members := by
  rw [render_eq, render_eq, enclosed_inj (by decide) (by decide) (k.items hk) (l.items hl), and_iff_right rfl]

theorem Suite.render_inj {s t : Suite} (hs : ∀ u ∈ s.body, Legible (stmt u)) (ht : ∀ u ∈ t.body, Legible (stmt u)) :
    s.render = t.render ↔ s.members = t.members := by
  rw [render_eq, render_eq, enclosed_inj (by decide) (by decide) (s.items hs) (t.items ht), and_iff_right rfl]

theorem Decorator.render_inj {d e : Decorator} (hd : Legible (decorator d)) (he : Legible (decorator e)) :
    d.render = e.render ↔ d.members = e.members := by
  rw [render_eq, render_eq, enclosed_inj (by decide) (by decide) (d.items hd) (e.items he), and_iff_right rfl]

theorem Parameters.render_inj {p q : Parameters} (hp : Legible (parameters p)) (hq : Legible (parameters q)) :
    p.render = q.render ↔ p.members = q.members := by
  rw [render_eq, render_eq, enclosed_inj (by decide) (by decide) (p.items hp) (q.items hq), and_iff_right rfl]

theorem Stmt.render_inj {s t : Stmt} (hs : Legible (stmt s)) (ht : Legible (stmt t)) :
    s.render = t.render ↔ s.label = t.label ∧ s.members = t.members := by
  have hclear : Clear "Pass" := by decide
  rcases s.render_eq with ⟨hlabel, heq⟩ | ⟨pos, rfl⟩ <;> rcases t.render_eq with ⟨hlabel', heq'⟩ | ⟨pos', rfl⟩
  · rw [heq, heq', enclosed_inj s.clear_label t.clear_label (s.items hs) (t.items ht)]
  · have hne : enclosed s.label s.members ≠ (pass pos').render := enclosed_ne hclear s.label s.members
    rw [heq]
    exact iff_of_false hne fun h => hlabel h.1
  · have hne : enclosed t.label t.members ≠ (pass pos).render := enclosed_ne hclear t.label t.members
    rw [heq']
    exact iff_of_false hne.symm fun h => hlabel' h.1.symm
  · exact iff_of_true rfl ⟨rfl, rfl⟩

/-! ## A part that is missing is told from one that is there -/

theorem clear_null : Clear "null" := by decide

theorem NameToken.render_ne_null (t : NameToken) : t.render ≠ "null" := by
  rw [render_eq]
  exact enclosed_ne clear_null _ _

theorem Expr.render_ne_null (e : Expr) : e.render ≠ "null" := by
  rw [render_eq]
  exact enclosed_ne clear_null _ _

theorem Suite.render_ne_null (s : Suite) : s.render ≠ "null" := by
  rw [render_eq]
  exact enclosed_ne clear_null _ _

theorem tokenText?_iff {t u : Option NameToken} (ht : LegibleToken t) (hu : LegibleToken u) :
    orNull (t.map NameToken.render) = orNull (u.map NameToken.render) ↔ tokensAgree? .ignore t u = true := by
  cases t with
  | none =>
    cases u with
    | none => simp [tokensAgree?]
    | some u => simpa [orNull, tokensAgree?] using u.render_ne_null.symm
  | some t =>
    cases u with
    | none => simpa [orNull, tokensAgree?] using t.render_ne_null
    | some u => simpa [orNull, tokensAgree?] using NameToken.render_iff (ht t rfl) (hu u rfl)

/-! ## Trees are rendered alike exactly when they agree -/

mutual

theorem Expr.render_iff : ∀ x y : Expr, Legible (expr x) → Legible (expr y) →
    (x.render = y.render ↔ x.agrees .ignore y = true)
  | .name .., y, hx, hy => by
    rw [Expr.render_inj hx hy]
    cases y <;> simp [Expr.label, Expr.members, Expr.agrees, Binding.name_inj, boolText_inj, and_assoc]
  | .num .., y, hx, hy => by
    rw [Expr.render_inj hx hy]
    cases y <;> simp [Expr.label, Expr.members, Expr.agrees]
  | .str _ _ ⟨_, _, _, _⟩ ss, y, hx, hy => by
    rw [Expr.render_inj hx hy]
    cases y with
    | str _ _ marks ts =>
      cases marks
      have hsegments := stmtTexts_iff ss ts hx.spelled.2 hy.spelled.2
      simp [Expr.label, Expr.members, Expr.agrees, boolText_inj, hsegments, and_assoc]
    | _ => simp [Expr.label, Expr.agrees]
  | .tuple _ es _ _, y, hx, hy => by
    rw [Expr.render_inj hx hy]
    cases y with
    | tuple _ fs _ _ =>
      have helts := exprTexts_iff es fs hx.spelled hy.spelled
      simp [Expr.label, Expr.members, Expr.agrees, Binding.name_inj, boolText_inj, helts, and_assoc]
    | _ => simp [Expr.label, Expr.agrees]
  | .list _ es _, y, hx, hy => by
    rw [Expr.render_inj hx hy]
    cases y with
    | list _ fs _ =>
      have helts := exprTexts_iff es fs hx.spelled hy.spelled
      simp [Expr.label, Expr.members, Expr.agrees, Binding.name_inj, helts]
    | _ => simp [Expr.label, Expr.agrees]
  | .set _ es, y, hx, hy => by
    rw [Expr.render_inj hx hy]
    cases y with
    | set _ fs =>
      have helts := exprTexts_iff es fs hx.spelled hy.spelled
      simp [Expr.label, Expr.members, Expr.agrees, helts]
    | _ => simp [Expr.label, Expr.agrees]
  | .dict _ ks vs, y, hx, hy => by
    rw [Expr.render_inj hx hy]
    cases y with
    | dict _ ls ws =>
      have hkeys := exprTexts_iff ks ls hx.spelled.1 hy.spelled.1
      have hvalues := exprTexts_iff vs ws hx.spelled.2 hy.spelled.2
      simp [Expr.label, Expr.members, Expr.agrees, hkeys, hvalues]
    | _ => simp [Expr.label, Expr.agrees]
  | .call _ f as, y, hx, hy => by
    rw [Expr.render_inj hx hy]
    cases y with
    | call _ g bs =>
      have hfunc := f.render_iff g hx.spelled.1 hy.spelled.1
      have hargs := as.members_iff bs hx.spelled.2 hy.spelled.2
      simp [Expr.label, Expr.members, Expr.agrees, hfunc, hargs]
    | _ => simp [Expr.label, Expr.agrees]
  | .binOp _ l _ r, y, hx, hy => by
    rw [Expr.render_inj hx hy]
    cases y with
    | binOp _ l' _ r' =>
      have hleft := l.render_iff l' hx.spelled.1 hy.spelled.1
      have hright := r.render_iff r' hx.spelled.2 hy.spelled.2
      simp [Expr.label, Expr.members, Expr.agrees, BinaryOp.name_inj, hleft, hright, and_assoc]
    | _ => simp [Expr.label, Expr.agrees]
  | .boolOp _ _ vs, y, hx, hy => by
    rw [Expr.render_inj hx hy]
    cases y with
    | boolOp _ _ ws =>
      have hvalues := exprTexts_iff vs ws hx.spelled hy.spelled
      simp [Expr.label, Expr.members, Expr.agrees, BoolOp.name_inj, hvalues]
    | _ => simp [Expr.label, Expr.agrees]
  | .compare _ l _ cs, y, hx, hy => by
    rw [Expr.render_inj hx hy]
    cases y with
    | compare _ l' _ ds =>
      have hleft := l.render_iff l' hx.spelled.1 hy.spelled.1
      have hcomparators := exprTexts_iff cs ds hx.spelled.2 hy.spelled.2
      simp [Expr.label, Expr.members, Expr.agrees, CompareOp.names_inj, hleft, hcomparators, and_assoc]
    | _ => simp [Expr.label, Expr.agrees]
  | .ifExp _ t b o, y, hx, hy => by
    rw [Expr.render_inj hx hy]
    cases y with
    | ifExp _ t' b' o' =>
      obtain ⟨ht, hb, ho⟩ := hx.spelled
      obtain ⟨ht', hb', ho'⟩ := hy.spelled
      have htest := t.render_iff t' ht ht'
      have hbody := b.render_iff b' hb hb'
      have horelse := o.render_iff o' ho ho'
      simp [Expr.label, Expr.members, Expr.agrees, htest, hbody, horelse, and_assoc]
    | _ => simp [Expr.label, Expr.agrees]
  | .await _ v, y, hx, hy => by
    rw [Expr.render_inj hx hy]
    cases y with
    | await _ w =>
      have hvalue := v.render_iff w hx.spelled hy.spelled
      simp [Expr.label, Expr.members, Expr.agrees, hvalue]
    | _ => simp [Expr.label, Expr.agrees]
  | .yield _ v, y, hx, hy => by
    rw [Expr.render_inj hx hy]
    cases y with
    | yield _ w =>
      have hvalue := exprText?_iff v w hx.spelled hy.spelled
      simp [Expr.label, Expr.members, Expr.agrees, hvalue]
    | _ => simp [Expr.label, Expr.agrees]
termination_by structural x => x

theorem CallArgs.members_iff : ∀ a b : CallArgs, LegibleArguments a → LegibleArguments b →
    (a.members = b.members ↔ a.agrees .ignore b = true)
  | ⟨as, ks, s, k⟩, ⟨as', ks', s', k'⟩, ha, hb => by
    obtain ⟨has, hks, hs, hk⟩ := ha
    obtain ⟨has', hks', hs', hk'⟩ := hb
    have hargs := exprTexts_iff as as' has has'
    have hkeywords := keywordTexts_iff ks ks' hks hks'
    have hstarargs := exprText?_iff s s' hs hs'
    have hkwargs := exprText?_iff k k' hk hk'
    simp [CallArgs.members, CallArgs.agrees, hargs, hkeywords, hstarargs, hkwargs, and_assoc]
termination_by structural a => a

theorem Keyword.render_iff : ∀ k l : Keyword, Legible (keyword k) → Legible (keyword l) →
    (k.render = l.render ↔ k.agrees .ignore l = true)
  | ⟨a, v⟩, ⟨b, w⟩, hk, hl => by
    rw [Keyword.render_inj hk hl]
    have harg : a.render = b.render ↔ a.agrees .ignore b = true := NameToken.render_iff hk.spelled.1 hl.spelled.1
    have hvalue := v.render_iff w hk.spelled.2 hl.spelled.2
    simp [Keyword.members, Keyword.agrees, harg, hvalue]
termination_by structural k => k

theorem Stmt.render_iff : ∀ x y : Stmt, Legible (stmt x) → Legible (stmt y) →
    (x.render = y.render ↔ x.agrees .ignore y = true)
  | .assign _ ts v, y, hx, hy => by
    rw [Stmt.render_inj hx hy]
    cases y with
    | assign _ ts' v' =>
      have htargets := exprTexts_iff ts ts' hx.spelled.1 hy.spelled.1
      have hvalue := v.render_iff v' hx.spelled.2 hy.spelled.2
      simp [Stmt.label, Stmt.members, Stmt.agrees, htargets, hvalue]
    | _ => simp [Stmt.label, Stmt.agrees]
  | .augAssign _ t _ v, y, hx, hy => by
    rw [Stmt.render_inj hx hy]
    cases y with
    | augAssign _ t' _ v' =>
      have htarget := t.render_iff t' hx.spelled.1 hy.spelled.1
      have hvalue := v.render_iff v' hx.spelled.2 hy.spelled.2
      simp [Stmt.label, Stmt.members, Stmt.agrees, BinaryOp.name_inj, htarget, hvalue, and_assoc]
    | _ => simp [Stmt.label, Stmt.agrees]
  | .expr _ v, y, hx, hy => by
    rw [Stmt.render_inj hx hy]
    cases y with
    | expr _ w =>
      have hvalue := v.render_iff w hx.spelled hy.spelled
      simp [Stmt.label, Stmt.members, Stmt.agrees, hvalue]
    | _ => simp [Stmt.label, Stmt.agrees]
  | .pass _, y, hx, hy => by
    rw [Stmt.render_inj hx hy]
    cases y <;> simp [Stmt.label, Stmt.members, Stmt.agrees]
  | .ifElse _ t b o, y, hx, hy => by
    rw [Stmt.render_inj hx hy]
    cases y with
    | ifElse _ t' b' o' =>
      obtain ⟨ht, hb, ho⟩ := hx.spelled
      obtain ⟨ht', hb', ho'⟩ := hy.spelled
      have htest := t.render_iff t' ht ht'
      have hbody := stmtTexts_iff b b' hb hb'
      have horelse := suiteText?_iff o o' ho ho'
      simp [Stmt.label, Stmt.members, Stmt.agrees, htest, hbody, horelse, and_assoc]
    | _ => simp [Stmt.label, Stmt.agrees]
  | .whileLoop _ t b o, y, hx, hy => by
    rw [Stmt.render_inj hx hy]
    cases y with
    | whileLoop _ t' b' o' =>
      obtain ⟨ht, hb, ho⟩ := hx.spelled
      obtain ⟨ht', hb', ho'⟩ := hy.spelled
      have htest := t.render_iff t' ht ht'
      have hbody := stmtTexts_iff b b' hb hb'
      have horelse := suiteText?_iff o o' ho ho'
      simp [Stmt.label, Stmt.members, Stmt.agrees, htest, hbody, horelse, and_assoc]
    | _ => simp [Stmt.label, Stmt.agrees]
  | .forLoop _ t i b o _, y, hx, hy => by
    rw [Stmt.render_inj hx hy]
    cases y with
    | forLoop _ t' i' b' o' _ =>
      obtain ⟨ht, hi, hb, ho⟩ := hx.spelled
      obtain ⟨ht', hi', hb', ho'⟩ := hy.spelled
      have htarget := t.render_iff t' ht ht'
      have hiter := i.render_iff i' hi hi'
      have hbody := stmtTexts_iff b b' hb hb'
      have horelse := suiteText?_iff o o' ho ho'
      simp [Stmt.label, Stmt.members, Stmt.agrees, boolText_inj, htarget, hiter, hbody, horelse, and_assoc]
    | _ => simp [Stmt.label, Stmt.agrees]
  | .assertion _ t m, y, hx, hy => by
    rw [Stmt.render_inj hx hy]
    cases y with
    | assertion _ t' m' =>
      have htest := t.render_iff t' hx.spelled.1 hy.spelled.1
      have hmsg := exprText?_iff m m' hx.spelled.2 hy.spelled.2
      simp [Stmt.label, Stmt.members, Stmt.agrees, htest, hmsg]
    | _ => simp [Stmt.label, Stmt.agrees]
  | .ret _ v, y, hx, hy => by
    rw [Stmt.render_inj hx hy]
    cases y with
    | ret _ w =>
      have hvalue := exprText?_iff v w hx.spelled hy.spelled
      simp [Stmt.label, Stmt.members, Stmt.agrees, hvalue]
    | _ => simp [Stmt.label, Stmt.agrees]
  | .functionDef _ n p b ds _, y, hx, hy => by
    rw [Stmt.render_inj hx hy]
    cases y with
    | functionDef _ n' p' b' ds' _ =>
      obtain ⟨hn, hp, hb, hds⟩ := hx.spelled
      obtain ⟨hn', hp', hb', hds'⟩ := hy.spelled
      have hname := NameToken.render_iff hn hn'
      have hparams := p.render_iff p' hp hp'
      have hbody := stmtTexts_iff b b' hb hb'
      have hdecs := decoratorTexts_iff ds ds' hds hds'
      simp [Stmt.label, Stmt.members, Stmt.agrees, boolText_inj, hname, hparams, hbody, hdecs, and_assoc]
    | _ => simp [Stmt.label, Stmt.agrees]
  | .classDef _ n bs b ds, y, hx, hy => by
    rw [Stmt.render_inj hx hy]
    cases y with
    | classDef _ n' bs' b' ds' =>
      obtain ⟨hn, hbs, hb, hds⟩ := hx.spelled
      obtain ⟨hn', hbs', hb', hds'⟩ := hy.spelled
      have hname := NameToken.render_iff hn hn'
      have hbases := exprTexts_iff bs bs' hbs hbs'
      have hbody := stmtTexts_iff b b' hb hb'
      have hdecs := decoratorTexts_iff ds ds' hds hds'
      simp [Stmt.label, Stmt.members, Stmt.agrees, hname, hbases, hbody, hdecs, and_assoc]
    | _ => simp [Stmt.label, Stmt.agrees]
termination_by structural x => x

theorem Suite.render_iff : ∀ s t : Suite, (∀ u ∈ s.body, Legible (stmt u)) → (∀ u ∈ t.body, Legible (stmt u)) →
    (s.render = t.render ↔ s.agrees .ignore t = true)
  | ⟨b, _⟩, ⟨b', _⟩, hs, ht => by
    rw [Suite.render_inj hs ht]
    have hbody := stmtTexts_iff b b' hs ht
    simp [Suite.members, Suite.agrees, hbody]
termination_by structural s => s

theorem Decorator.render_iff : ∀ d e : Decorator, Legible (decorator d) → Legible (decorator e) →
    (d.render = e.render ↔ d.agrees .ignore e = true)
  | ⟨f, as, _, _⟩, ⟨g, bs, _, _⟩, hd, he => by
    rw [Decorator.render_inj hd he]
    have hfunc := f.render_iff g hd.spelled.1 he.spelled.1
    have hargs := as.members_iff bs hd.spelled.2 he.spelled.2
    simp [Decorator.members, Decorator.agrees, List.append_singleton_inj, boolText_inj, hfunc, hargs, and_assoc]
termination_by structural d => d

theorem Parameters.render_iff : ∀ p q : Parameters, Legible (parameters p) → Legible (parameters q) →
    (p.render = q.render ↔ p.agrees .ignore q = true)
  | ⟨as, ds, ns, _, _, kas, kds, kns⟩, ⟨as', ds', ns', _, _, kas', kds', kns'⟩, hp, hq => by
    rw [Parameters.render_inj hp hq]
    obtain ⟨⟨hv, hk⟩, has, hkas, hds, hns, hkds, hkns⟩ := hp.spelled
    obtain ⟨⟨hv', hk'⟩, has', hkas', hds', hns', hkds', hkns'⟩ := hq.spelled
    have hvararg := tokenText?_iff hv hv'
    have hkwarg := tokenText?_iff hk hk'
    have hargs := exprTexts_iff as as' has has'
    have hkwonlyargs := exprTexts_iff kas kas' hkas hkas'
    have hdefaults := optionTexts_iff ds ds' hds hds'
    have hannotations := optionTexts_iff ns ns' hns hns'
    have hkwDefaults := optionTexts_iff kds kds' hkds hkds'
    have hkwonlyAnnotations := optionTexts_iff kns kns' hkns hkns'
    simp [Parameters.members, Parameters.agrees, hvararg, hkwarg, hargs, hkwonlyargs, hdefaults, hannotations,
      hkwDefaults, hkwonlyAnnotations, and_assoc, and_left_comm, and_comm]
termination_by structural p => p

theorem exprTexts_iff : ∀ es fs : List Expr, (∀ e ∈ es, Legible (expr e)) → (∀ f ∈ fs, Legible (expr f)) →
    (bracketed (exprTexts es) = bracketed (exprTexts fs) ↔ exprsAgree .ignore es fs = true)
  | [], fs, hx, hy => by
    rw [bracketed_inj (exprs_items [] hx) (exprs_items fs hy)]
    cases fs <;> simp [exprTexts, exprsAgree]
  | e :: es, [], hx, hy => by
    rw [bracketed_inj (exprs_items (e :: es) hx) (exprs_items [] hy)]
    simp [exprTexts, exprsAgree]
  | e :: es, f :: fs, hx, hy => by
    have hread := bracketed_cons_inj (exprs_items (e :: es) hx) (exprs_items (f :: fs) hy)
    rw [List.forall_mem_cons] at hx hy
    have hhead := e.render_iff f hx.1 hy.1
    have htail := exprTexts_iff es fs hx.2 hy.2
    simp [exprTexts, exprsAgree, hread, hhead, htail]
termination_by structural es => es

theorem exprText?_iff : ∀ o p : Option Expr, (∀ e ∈ o, Legible (expr e)) → (∀ e ∈ p, Legible (expr e)) →
    (orNull (exprText? o) = orNull (exprText? p) ↔ exprAgrees? .ignore o p = true)
  | none, none, _, _ => by simp [exprText?, exprAgrees?]
  | none, some f, _, _ => by simpa [orNull, exprText?, exprAgrees?] using f.render_ne_null.symm
  | some e, none, _, _ => by simpa [orNull, exprText?, exprAgrees?] using e.render_ne_null
  | some e, some f, hx, hy => by simpa [orNull, exprText?, exprAgrees?] using e.render_iff f (hx e rfl) (hy f rfl)
termination_by structural o => o

theorem optionTexts_iff : ∀ os ps : List (Option Expr), (∀ e, some e ∈ os → Legible (expr e)) →
    (∀ e, some e ∈ ps → Legible (expr e)) →
    (bracketed (optionTexts os) = bracketed (optionTexts ps) ↔ optionsAgree .ignore os ps = true)
  | [], ps, hx, hy => by
    rw [bracketed_inj (options_items [] hx) (options_items ps hy)]
    cases ps <;> simp [optionTexts, optionsAgree]
  | o :: os, [], hx, hy => by
    rw [bracketed_inj (options_items (o :: os) hx) (options_items [] hy)]
    simp [optionTexts, optionsAgree]
  | o :: os, p :: ps, hx, hy => by
    have hread := bracketed_cons_inj (options_items (o :: os) hx) (options_items (p :: ps) hy)
    have hos : ∀ e, some e ∈ os → Legible (expr e) := fun e he => hx e (List.mem_cons_of_mem o he)
    have hps : ∀ e, some e ∈ ps → Legible (expr e) := fun e he => hy e (List.mem_cons_of_mem p he)
    have ho : ∀ e ∈ o, Legible (expr e) := fun e he => hx e (he ▸ List.mem_cons_self)
    have hp : ∀ e ∈ p, Legible (expr e) := fun e he => hy e (he ▸ List.mem_cons_self)
    have hhead := exprText?_iff o p ho hp
    have htail := optionTexts_iff os ps hos hps
    simp [optionTexts, optionsAgree, hread, hhead, htail]
termination_by structural os => os

theorem keywordTexts_iff : ∀ ks ls : List Keyword, (∀ k ∈ ks, Legible (keyword k)) → (∀ l ∈ ls, Legible (keyword l)) →
    (bracketed (keywordTexts ks) = bracketed (keywordTexts ls) ↔ keywordsAgree .ignore ks ls = true)
  | [], ls, hx, hy => by
    rw [bracketed_inj (keywords_items [] hx) (keywords_items ls hy)]
    cases ls <;> simp [keywordTexts, keywordsAgree]
  | k :: ks, [], hx, hy => by
    rw [bracketed_inj (keywords_items (k :: ks) hx) (keywords_items [] hy)]
    simp [keywordTexts, keywordsAgree]
  | k :: ks, l :: ls, hx, hy => by
    have hread := bracketed_cons_inj (keywords_items (k :: ks) hx) (keywords_items (l :: ls) hy)
    rw [List.forall_mem_cons] at hx hy
    have hhead := k.render_iff l hx.1 hy.1
    have htail := keywordTexts_iff ks ls hx.2 hy.2
    simp [keywordTexts, keywordsAgree, hread, hhead, htail]
termination_by structural ks => ks

theorem stmtTexts_iff : ∀ ss ts : List Stmt, (∀ s ∈ ss, Legible (stmt s)) → (∀ t ∈ ts, Legible (stmt t)) →
    (bracketed (stmtTexts ss) = bracketed (stmtTexts ts) ↔ stmtsAgree .ignore ss ts = true)
  | [], ts, hx, hy => by
    rw [bracketed_inj (stmts_items [] hx) (stmts_items ts hy)]
    cases ts <;> simp [stmtTexts, stmtsAgree]
  | s :: ss, [], hx, hy => by
    rw [bracketed_inj (stmts_items (s :: ss) hx) (stmts_items [] hy)]
    simp [stmtTexts, stmtsAgree]
  | s :: ss, t :: ts, hx, hy => by
    have hread := bracketed_cons_inj (stmts_items (s :: ss) hx) (stmts_items (t :: ts) hy)
    rw [List.forall_mem_cons] at hx hy
    have hhead := s.render_iff t hx.1 hy.1
    have htail := stmtTexts_iff ss ts hx.2 hy.2
    simp [stmtTexts, stmtsAgree, hread, hhead, htail]
termination_by structural ss => ss

theorem suiteText?_iff : ∀ o p : Option Suite, LegibleBlock o → LegibleBlock p →
    (orNull (suiteText? o) = orNull (suiteText? p) ↔ suiteAgrees? .ignore o p = true)
  | none, none, _, _ => by simp [suiteText?, suiteAgrees?]
  | none, some t, _, _ => by simpa [orNull, suiteText?, suiteAgrees?] using t.render_ne_null.symm
  | some s, none, _, _ => by simpa [orNull, suiteText?, suiteAgrees?] using s.render_ne_null
  | some s, some t, hx, hy => by simpa [orNull, suiteText?, suiteAgrees?] using s.render_iff t (hx s rfl) (hy t rfl)
termination_by structural o => o

theorem decoratorTexts_iff : ∀ ds es : List Decorator, (∀ d ∈ ds, Legible (decorator d)) →
    (∀ e ∈ es, Legible (decorator e)) →
    (bracketed (decoratorTexts ds) = bracketed (decoratorTexts es) ↔ decoratorsAgree .ignore ds es = true)
  | [], es, hx, hy => by
    rw [bracketed_inj (decorators_items [] hx) (decorators_items es hy)]
    cases es <;> simp [decoratorTexts, decoratorsAgree]
  | d :: ds, [], hx, hy => by
    rw [bracketed_inj (decorators_items (d :: ds) hx) (decorators_items [] hy)]
    simp [decoratorTexts, decoratorsAgree]
  | d :: ds, e :: es, hx, hy => by
    have hread := bracketed_cons_inj (decorators_items (d :: ds) hx) (decorators_items (e :: es) hy)
    rw [List.forall_mem_cons] at hx hy
    have hhead := d.render_iff e hx.1 hy.1
    have htail := decoratorTexts_iff ds es hx.2 hy.2
    simp [decoratorTexts, decoratorsAgree, hread, hhead, htail]
termination_by structural ds => ds

end

/-! ## Modules -/

namespace Module

theorem render_eq (m : Module) : m.render = enclosed "Module" ["body=" ++ bracketed (stmtTexts m.body)] := by
  rw [← String.toList_inj]
  simp [render]

/-- **Renderings are faithful.** Two modules in which no identifier, number text or string text has a bracket or a comma
are rendered alike exactly when they are structurally equal with positions ignored. -/
theorem render_faithful {m n : Module} (hm : ∀ b t, m.Has b t → ∀ text ∈ t.texts, Clear text)
    (hn : ∀ b t, n.Has b t → ∀ text ∈ t.texts, Clear text) :
    m.render = n.render ↔ m.structurallyEqual n .ignore = true := by
  have hm : ∀ s ∈ m.body, Legible (stmt s) := fun s hs b t ht => hm b t ⟨s, hs, ht⟩
  have hn : ∀ s ∈ n.body, Legible (stmt s) := fun s hs b t ht => hn b t ⟨s, hs, ht⟩
  have hitem {ss : List Stmt} (hss : ∀ s ∈ ss, Legible (stmt s)) :
      ∀ text ∈ ["body=" ++ bracketed (stmtTexts ss)], Item text := by
    simp +decide [item_key, closed_bracketed (stmts_items ss hss)]
  calc m.render = n.render
      ↔ bracketed (stmtTexts m.body) = bracketed (stmtTexts n.body) := by
        rw [render_eq, render_eq, enclosed_inj (by decide) (by decide) (hitem hm) (hitem hn)]
        simp
    _ ↔ stmtsAgree .ignore m.body n.body = true := stmtTexts_iff m.body n.body hm hn
    _ ↔ m.structurallyEqual n .ignore = true := agrees_iff.trans structurallyEqual_iff.symm

/-- the pair `"hi", names`, with or without a comma at its end -/
def greeted (pos : Position) (comma : Bool) : Expr :=
  .tuple pos [.str pos "hi" {} [], .ident "names" .load pos] .load comma

/-- the module `def greet(*names): return "hi", names`, with all its nodes at one position -/
def greeting (pos : Position) (comma : Bool) : Module := ⟨[
  .functionDef pos ⟨"greet", .functionName, pos⟩ { Parameters.none with vararg := some ⟨"names", .varArg, pos⟩ }
    [.ret pos (some (greeted pos comma))] [] false]⟩

theorem clear_greeting (pos : Position) (comma : Bool) :
    ∀ b t, (greeting pos comma).Has b t → ∀ text ∈ t.texts, Clear text := by
  have hgreet : Clear "greet" := by decide
  have hnames : Clear "names" := by decide
  have hgreeted : Legible (expr (greeted pos comma)) := by
    have hhi : Legible (expr (.str pos "hi" {} [])) := legible_iff.2 ⟨by decide, by simp⟩
    have hnames : Legible (expr (.ident "names" .load pos)) := legible_iff.2 hnames
    exact legible_iff.2 (List.forall_mem_cons.2 ⟨hhi, List.forall_mem_singleton.2 hnames⟩)
  have hret : Legible (stmt (.ret pos (some (greeted pos comma)))) := by
    refine legible_iff.2 fun e he => ?_
    cases he
    exact hgreeted
  have hparams : Legible (parameters { Parameters.none with vararg := some ⟨"names", .varArg, pos⟩ }) :=
    legible_iff.2 (by simp [Spelled, LegibleToken, Parameters.none, hnames])
  rintro b t ⟨s, hs, ht⟩
  have hdef : Legible (stmt s) := by
    rw [List.mem_singleton.1 hs]
    exact legible_iff.2 ⟨hgreet, hparams, List.forall_mem_singleton.2 hret, List.forall_mem_nil _⟩
  exact hdef b t ht

/-- Positions are not shown, and the last comma is. -/
theorem render_faithful_greeting :
    (greeting ⟨1, 1⟩ true).render = (greeting ⟨7, 3⟩ true).render ∧
      (greeting ⟨1, 1⟩ true).render ≠ (greeting ⟨7, 3⟩ false).render := by
  have hclear := clear_greeting
  constructor
  · exact (render_faithful (hclear _ _) (hclear _ _)).2 rfl
  · intro h
    have hequal := (render_faithful (hclear _ _) (hclear _ _)).1 h
    cases hequal

end Module

end Graft
