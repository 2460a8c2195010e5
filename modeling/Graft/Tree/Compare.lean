/-
Comparing trees.

A `Policy` says which positions count. `Module.normalized` resets those that do not, and two modules are equal under a
policy when they are the same once normalized. `Module.agrees` is the direct comparison, a recursion over both trees at
once that skips the positions which do not count.
-/
import Graft.Tree.Walk

namespace Graft

/-- which positions count in a comparison -/
inductive Policy where
  | exact
  | ignoreSuites
  | ignore
  deriving DecidableEq

namespace Policy

/-- whether the positions of a part do not count -/
def ignores : Policy → Part → Bool
  | exact, _ => false
  | ignoreSuites, part => part == .suite
  | ignore, _ => true

/-- whether two positions of a part are as good as equal -/
def samePos (policy : Policy) (part : Part) (p q : Position) : Bool := policy.ignores part || p == q

/-- resets the positions that do not count -/
def eraser (policy : Policy) : Edit :=
  ⟨fun part p => if policy.ignores part then Position.unknown else p, id⟩

end Policy

def NameToken.agrees (policy : Policy) (t u : NameToken) : Bool :=
  t.id == u.id && t.role == u.role && policy.samePos .token t.pos u.pos

/-- whether two tokens that may be missing agree -/
def tokensAgree? (policy : Policy) : Option NameToken → Option NameToken → Bool
  | none, none => true
  | some t, some u => t.agrees policy u
  | _, _ => false

mutual

def Expr.agrees (policy : Policy) : Expr → Expr → Bool
  | .name p id b r, .name p' id' b' r' => policy.samePos .expr p p' && id == id' && b == b' && r == r'
  | .num p d, .num p' d' => policy.samePos .expr p p' && d == d'
  | .str p t m ss, .str p' t' m' ss' => policy.samePos .expr p p' && t == t' && m == m' && stmtsAgree policy ss ss'
  | .tuple p es b c, .tuple p' es' b' c' => policy.samePos .expr p p' && exprsAgree policy es es' && b == b' && c == c'
  | .list p es b, .list p' es' b' => policy.samePos .expr p p' && exprsAgree policy es es' && b == b'
  | .set p es, .set p' es' => policy.samePos .expr p p' && exprsAgree policy es es'
  | .dict p ks vs, .dict p' ks' vs' => policy.samePos .expr p p' && exprsAgree policy ks ks' && exprsAgree policy vs vs'
  | .call p f a, .call p' f' a' => policy.samePos .expr p p' && f.agrees policy f' && a.agrees policy a'
  | .binOp p l o r, .binOp p' l' o' r' =>
    policy.samePos .expr p p' && l.agrees policy l' && o == o' && r.agrees policy r'
  | .boolOp p o vs, .boolOp p' o' vs' => policy.samePos .expr p p' && o == o' && exprsAgree policy vs vs'
  | .compare p l os cs, .compare p' l' os' cs' =>
    policy.samePos .expr p p' && l.agrees policy l' && os == os' && exprsAgree policy cs cs'
  | .ifExp p t b o, .ifExp p' t' b' o' =>
    policy.samePos .expr p p' && t.agrees policy t' && b.agrees policy b' && o.agrees policy o'
  | .await p v, .await p' v' => policy.samePos .expr p p' && v.agrees policy v'
  | .yield p v, .yield p' v' => policy.samePos .expr p p' && exprAgrees? policy v v'
  | _, _ => false
termination_by structural e => e

def CallArgs.agrees (policy : Policy) : CallArgs → CallArgs → Bool
  | ⟨as, ks, s, k⟩, ⟨as', ks', s', k'⟩ =>
    exprsAgree policy as as' && keywordsAgree policy ks ks' && exprAgrees? policy s s' && exprAgrees? policy k k'
termination_by structural a => a

def Keyword.agrees (policy : Policy) : Keyword → Keyword → Bool
  | ⟨a, v⟩, ⟨a', v'⟩ => a.agrees policy a' && v.agrees policy v'
termination_by structural k => k

def Stmt.agrees (policy : Policy) : Stmt → Stmt → Bool
  | .assign p ts v, .assign p' ts' v' => policy.samePos .stmt p p' && exprsAgree policy ts ts' && v.agrees policy v'
  | .augAssign p t o v, .augAssign p' t' o' v' =>
    policy.samePos .stmt p p' && t.agrees policy t' && o == o' && v.agrees policy v'
  | .expr p v, .expr p' v' => policy.samePos .stmt p p' && v.agrees policy v'
  | .pass p, .pass p' => policy.samePos .stmt p p'
  | .ifElse p t b o, .ifElse p' t' b' o' =>
    policy.samePos .stmt p p' && t.agrees policy t' && stmtsAgree policy b b' && suiteAgrees? policy o o'
  | .whileLoop p t b o, .whileLoop p' t' b' o' =>
    policy.samePos .stmt p p' && t.agrees policy t' && stmtsAgree policy b b' && suiteAgrees? policy o o'
  | .forLoop p t i b o a, .forLoop p' t' i' b' o' a' =>
    policy.samePos .stmt p p' && t.agrees policy t' && i.agrees policy i' && stmtsAgree policy b b'
      && suiteAgrees? policy o o' && a == a'
  | .assertion p t m, .assertion p' t' m' =>
    policy.samePos .stmt p p' && t.agrees policy t' && exprAgrees? policy m m'
  | .ret p v, .ret p' v' => policy.samePos .stmt p p' && exprAgrees? policy v v'
  | .functionDef p n ps b ds a, .functionDef p' n' ps' b' ds' a' =>
    policy.samePos .stmt p p' && n.agrees policy n' && ps.agrees policy ps' && stmtsAgree policy b b'
      && decoratorsAgree policy ds ds' && a == a'
  | .classDef p n bs b ds, .classDef p' n' bs' b' ds' =>
    policy.samePos .stmt p p' && n.agrees policy n' && exprsAgree policy bs bs' && stmtsAgree policy b b'
      && decoratorsAgree policy ds ds'
  | _, _ => false
termination_by structural s => s

def Suite.agrees (policy : Policy) : Suite → Suite → Bool
  | ⟨b, p⟩, ⟨b', p'⟩ => stmtsAgree policy b b' && policy.samePos .suite p p'
termination_by structural s => s

def Decorator.agrees (policy : Policy) : Decorator → Decorator → Bool
  | ⟨f, a, c, p⟩, ⟨f', a', c', p'⟩ =>
    f.agrees policy f' && a.agrees policy a' && c == c' && policy.samePos .decorator p p'
termination_by structural d => d

def Parameters.agrees (policy : Policy) : Parameters → Parameters → Bool
  | ⟨a, d, n, v, k, ka, kd, kn⟩, ⟨a', d', n', v', k', ka', kd', kn'⟩ =>
    exprsAgree policy a a' && optionsAgree policy d d' && optionsAgree policy n n' && tokensAgree? policy v v'
      && tokensAgree? policy k k' && exprsAgree policy ka ka' && optionsAgree policy kd kd'
      && optionsAgree policy kn kn'
termination_by structural p => p

def exprsAgree (policy : Policy) : List Expr → List Expr → Bool
  | [], [] => true
  | e :: es, f :: fs => e.agrees policy f && exprsAgree policy es fs
  | _, _ => false
termination_by structural es => es

def exprAgrees? (policy : Policy) : Option Expr → Option Expr → Bool
  | none, none => true
  | some e, some f => e.agrees policy f
  | _, _ => false
termination_by structural e => e

def optionsAgree (policy : Policy) : List (Option Expr) → List (Option Expr) → Bool
  | [], [] => true
  | e :: es, f :: fs => exprAgrees? policy e f && optionsAgree policy es fs
  | _, _ => false
termination_by structural es => es

def keywordsAgree (policy : Policy) : List Keyword → List Keyword → Bool
  | [], [] => true
  | k :: ks, l :: ls => k.agrees policy l && keywordsAgree policy ks ls
  | _, _ => false
termination_by structural ks => ks

def stmtsAgree (policy : Policy) : List Stmt → List Stmt → Bool
  | [], [] => true
  | s :: ss, t :: ts => s.agrees policy t && stmtsAgree policy ss ts
  | _, _ => false
termination_by structural ss => ss

def suiteAgrees? (policy : Policy) : Option Suite → Option Suite → Bool
  | none, none => true
  | some s, some t => s.agrees policy t
  | _, _ => false
termination_by structural s => s

def decoratorsAgree (policy : Policy) : List Decorator → List Decorator → Bool
  | [], [] => true
  | d :: ds, e :: es => d.agrees policy e && decoratorsAgree policy ds es
  | _, _ => false
termination_by structural ds => ds

end

namespace Module

/-- the module with the positions that do not count reset -/
def normalized (m : Module) (policy : Policy) : Module := m.edit policy.eraser

/-- whether two modules agree but for the positions that do not count -/
def agrees (policy : Policy) (m n : Module) : Bool := stmtsAgree policy m.body n.body

/-- whether two modules are the same once normalized -/
def structurallyEqual (m n : Module) (policy : Policy) : Bool :=
  (m.normalized policy).agrees .exact (n.normalized policy)

end Module

end Graft
