/-
Members of an object.

The text of an object spells its members in order, and a name may come again (`ObjectText`). One law says which node
that is (`Resolves`): the last text under the discriminator names the kind; all other members are fields, each name
once, where it came first and with what it held last. A member under the discriminator that is no text is a field like
the others, and does not touch the kind.

- `settles_insert`, `resolves_ofMembers`: one member more, and from it all members.
- `readMembers_eq_ok_iff_text`: the members that are read are those that the text spells, one after the other.
- `read_members`: an object is read from its text by that law, from all such texts and from no others; and inserting
  follows the same law.

The texts of a name and of a value are documents of their own here. They are read in the same way inside of the object,
because a reader looks no further than a value (`readers_segment`).
-/
import Mathlib.Data.List.Induction
import Graft.Proofs.Canonical
import Graft.Proofs.Lookahead

namespace Graft.Document

/-! ## The law -/

/-- the fields are the entries, each name once: where it came first, with what it held last -/
structure Settles (entries fields : List (String × Value)) : Prop where
  names : fields.map Prod.fst = (entries.map Prod.fst).eraseDups
  values : ∀ name, fields.lookup name = entries.reverse.lookup name

/-- the kind that a member names, if it is a text under the discriminator -/
def kindNamed? : String × Value → Option String
  | (name, .string kind) => if name = discriminator then some kind else none
  | _ => none

/-- the node that members make: the last kind that is named, and the other members as its fields -/
structure Resolves (members : List (String × Value)) (node : Node) : Prop where
  tag : node.tag = (members.filterMap kindNamed?).getLast?
  fields : Settles (members.filter fun m => (kindNamed? m).isNone) node.fields

theorem settles_nil : Settles [] [] := ⟨rfl, fun _ => rfl⟩

theorem eraseDups_concat (names : List String) (name : String) :
    (names ++ [name]).eraseDups = if name ∈ names then names.eraseDups else names.eraseDups ++ [name] := by
  rw [List.eraseDups_append]
  by_cases h : name ∈ names
  · simp [List.removeAll, h]
  · simp [List.removeAll, h, List.eraseDups_cons]

theorem nodup_eraseDups (names : List String) : names.eraseDups.Nodup := by
  induction names using List.reverseRecOn with
  | nil => exact List.nodup_nil
  | append_singleton names name ih =>
    rw [eraseDups_concat]
    by_cases h : name ∈ names
    · rwa [if_pos h]
    · rw [if_neg h, List.nodup_append]
      refine ⟨ih, by simp, fun n hn m hm heq => h ?_⟩
      rw [← List.mem_singleton.1 hm, ← heq]
      exact List.mem_eraseDups.1 hn

theorem lookup_of_notMem {name : String} {fields : List (String × Value)} (h : name ∉ fields.map Prod.fst) :
    fields.lookup name = none := by
  rw [List.lookup_eq_none_iff]
  intro f hf
  have hne : name ≠ f.1 := fun heq => h (heq ▸ List.mem_map_of_mem hf)
  simpa using hne

/-- Fields without a repeated name are settled already. -/
theorem settles_self {fields : List (String × Value)} (h : (fields.map Prod.fst).Nodup) : Settles fields fields := by
  induction fields with
  | nil => exact settles_nil
  | cons f fields ih =>
    obtain ⟨n, v⟩ := f
    obtain ⟨hn, hnodup⟩ := List.nodup_cons.1 h
    obtain ⟨hnames, hvalues⟩ := ih hnodup
    refine ⟨?_, fun name => ?_⟩
    · have hfilter : (fields.map Prod.fst).filter (fun m => !m == n) = fields.map Prod.fst := by
        rw [List.filter_eq_self]
        intro m hm
        have hne : m ≠ n := fun heq => hn (heq ▸ hm)
        simpa using hne
      rw [List.map_cons, List.eraseDups_cons, hfilter, ← hnames]
    · rw [List.reverse_cons, List.lookup_append, ← hvalues name, List.lookup_cons, List.lookup_cons, List.lookup_nil]
      by_cases hname : name = n
      · subst hname
        simp [lookup_of_notMem hn]
      · have hbeq : (name == n) = false := by simpa using hname
        simp [hbeq]

/-- Inserting an entry settles the entries with that one at their end. -/
theorem settles_insert {entries : List (String × Value)} {node : Node} (h : Settles entries node.fields)
    (name : String) (value : Value) : Settles (entries ++ [(name, value)]) (node.insert name value).fields where
  names := by
    have hmem : name ∈ node.fields.map Prod.fst ↔ name ∈ entries.map Prod.fst := by
      rw [h.names, List.mem_eraseDups]
    rw [Node.names_insert, List.map_append, List.map_singleton, eraseDups_concat, ← h.names]
    simp only [hmem]
  values other := by
    rw [List.reverse_append, List.reverse_singleton, List.singleton_append, List.lookup_cons]
    by_cases hother : other = name
    · subst hother
      rw [beq_self_eq_true]
      exact node.get?_insert_self other value
    · have hbeq : (other == name) = false := by simpa using hother
      rw [hbeq]
      exact (node.get?_insert_of_ne hother value).trans (h.values other)

/-- Lists without a repeated name are the same if their names are, and what they hold under each. -/
theorem eq_of_lookup {fields others : List (String × Value)} (hnodup : (fields.map Prod.fst).Nodup)
    (hnames : others.map Prod.fst = fields.map Prod.fst) (hvalues : ∀ name, others.lookup name = fields.lookup name) :
    others = fields := by
  induction fields generalizing others with
  | nil => simpa using hnames
  | cons f fields ih =>
    cases others with
    | nil => cases hnames
    | cons g others =>
      obtain ⟨n, v⟩ := f
      obtain ⟨m, w⟩ := g
      obtain ⟨hm, hmap⟩ := List.cons.inj hnames
      obtain rfl : m = n := hm
      obtain ⟨hfresh, hrest⟩ := List.nodup_cons.1 hnodup
      have hhead := hvalues m
      rw [List.lookup_cons_self, List.lookup_cons_self] at hhead
      obtain rfl : w = v := Option.some.inj hhead
      refine congrArg ((m, w) :: ·) (ih hrest hmap fun name => ?_)
      by_cases hname : name = m
      · subst hname
        rw [lookup_of_notMem hfresh, lookup_of_notMem (hmap ▸ hfresh)]
      · have hlookup := hvalues name
        have hbeq : (name == m) = false := by simpa using hname
        rwa [List.lookup_cons, List.lookup_cons, hbeq] at hlookup

/-- The entries say all about the fields. -/
theorem Settles.unique {entries fields others : List (String × Value)} (h : Settles entries fields)
    (hothers : Settles entries others) : others = fields :=
  eq_of_lookup (h.names ▸ nodup_eraseDups _) (hothers.names.trans h.names.symm) fun name =>
    (hothers.values name).trans (h.values name).symm

/-- The members say all about the node. -/
theorem Resolves.unique {members : List (String × Value)} {node other : Node} (h : Resolves members node)
    (hother : Resolves members other) : other = node := by
  obtain ⟨tag, fields⟩ := node
  obtain ⟨tag', fields'⟩ := other
  obtain rfl : tag' = tag := hother.tag.trans h.tag.symm
  obtain rfl : fields' = fields := h.fields.unique hother.fields
  rfl

/-- **Inserting one entry after the other settles them all**, after those that are there, and leaves the kind alone. -/
theorem settles_foldl_insert {entries : List (String × Value)} {node : Node} (h : Settles entries node.fields)
    (calls : List (String × Value)) :
    (calls.foldl (fun n c => n.insert c.1 c.2) node).tag = node.tag ∧
      Settles (entries ++ calls) (calls.foldl (fun n c => n.insert c.1 c.2) node).fields := by
  induction calls generalizing entries node with
  | nil =>
    rw [List.append_nil]
    exact ⟨rfl, h⟩
  | cons call calls ih =>
    obtain ⟨htag, hfields⟩ := ih (settles_insert h call.1 call.2)
    rw [List.append_assoc] at hfields
    exact ⟨htag, hfields⟩

/-- One member more names the kind or is a field more. -/
theorem resolves_addMember {members : List (String × Value)} {node : Node} (h : Resolves members node)
    (member : String × Value) : Resolves (members ++ [member]) (node.addMember member) := by
  obtain ⟨name, value⟩ := member
  rcases node.addMember_cases name value with ⟨kind, rfl, rfl, heq⟩ | ⟨hfield, heq⟩
  · have hnamed : kindNamed? (discriminator, .string kind) = some kind := by simp [kindNamed?]
    rw [heq]
    refine ⟨?_, ?_⟩
    · simp [List.filterMap_append, hnamed]
    · simpa [List.filter_append, hnamed] using h.fields
  · have hnamed : kindNamed? (name, value) = none := by
      cases value with
      | string kind => exact if_neg fun hname => hfield ⟨kind, hname, rfl⟩
      | _ => rfl
    rw [heq]
    refine ⟨?_, ?_⟩
    · rw [List.filterMap_append, List.filterMap_cons, hnamed, List.filterMap_nil, List.append_nil]
      exact h.tag
    · simpa [List.filter_append, hnamed] using settles_insert h.fields name value

/-- The node of members resolves them. -/
theorem resolves_ofMembers (members : List (String × Value)) : Resolves members (Node.ofMembers members) := by
  -- From the right, so that the last member is the last step of the fold.
  induction members using List.reverseRecOn with
  | nil => exact ⟨rfl, settles_nil⟩
  | append_singleton members member ih =>
    rw [Node.ofMembers, List.foldl_append]
    exact resolves_addMember ih member

/-! ## The text of an object -/

/-- the text is a document of the value -/
def Spells (cs : List Char) (v : Value) : Prop := read (String.ofList cs) = .ok v

/-- the text between the braces of an object with members -/
inductive MembersText : List Char → List (String × Value) → Prop where
  | one {key value : List Char} {name : String} {v : Value} : Spells key (.string name) → Spells value v →
      MembersText (key ++ ':' :: value) [(name, v)]
  | more {key value rest : List Char} {name : String} {v : Value} {members : List (String × Value)} :
      Spells key (.string name) → Spells value v → MembersText rest members →
      MembersText (key ++ ':' :: (value ++ ',' :: rest)) ((name, v) :: members)

/-- the text of an object with these members, in order, whether or not their names repeat -/
inductive ObjectText : List Char → List (String × Value) → Prop where
  | empty {lead mid trail : List Char} : Blank lead → Blank mid → Blank trail →
      ObjectText (lead ++ '\x7b' :: (mid ++ '\x7d' :: trail)) []
  | members {lead body trail : List Char} {members : List (String × Value)} : Blank lead → MembersText body members →
      Blank trail → ObjectText (lead ++ '\x7b' :: (body ++ '\x7d' :: trail)) members

/-- A document is a value with blanks after it. -/
theorem spells_iff {cs : List Char} {v : Value} :
    Spells cs v ↔ ∃ trail, Blank trail ∧ readValue (2 * cs.length + 2) cs = .ok (v, trail) := by
  unfold Spells read readAll
  rw [String.toList_ofList]
  cases readValue (2 * cs.length + 2) cs with
  | error stop => simp [bind, Except.bind, Except.mapError]
  | ok r =>
    obtain ⟨w, rest⟩ := r
    cases hrest : skipSpace rest with
    | nil =>
      have hblank : Blank rest := skipSpace_eq_nil_iff.1 hrest
      simp only [bind, Except.bind, hrest, pure, Except.pure, Except.mapError, Except.ok.injEq, Prod.mk.injEq]
      exact ⟨fun hw => ⟨rest, hblank, hw, rfl⟩, fun ⟨_, _, hw, _⟩ => hw⟩
    | cons c tail =>
      have hnot : ¬ Blank rest := fun hblank => by simp [skipSpace_eq_nil_iff.2 hblank] at hrest
      simp only [bind, Except.bind, hrest, stopAt, Except.mapError, Except.ok.injEq, Prod.mk.injEq, reduceCtorEq,
        false_iff]
      rintro ⟨trail, htrail, -, rfl⟩
      exact hnot htrail

/-- A value that stands before blanks is a document with those blanks. -/
theorem spells_segment {fuel : Nat} {cs blank rest : List Char} {v : Value}
    (h : readValue fuel cs = .ok (v, blank ++ rest)) (hblank : Blank blank) :
    ∃ text, cs = text ++ rest ∧ Spells text v := by
  obtain ⟨seg, rfl, hseg⟩ := (readers_segment fuel).1 _ _ _ h
  refine ⟨seg ++ blank, (List.append_assoc _ _ _).symm, spells_iff.2 ⟨blank, hblank, ?_⟩⟩
  have hadjoins : Adjoins (blank ++ rest) (blank ++ []) := (adjoins_nil rest).append blank
  rw [List.append_nil] at hadjoins
  exact hseg blank _ hadjoins (by rw [List.length_append]; omega)

/-- A document is read in the same way where more text comes after it, unless that goes on with a number. -/
theorem Spells.segment {cs : List Char} {v : Value} (h : Spells cs v) :
    ∃ trail, Blank trail ∧ ∀ rest enough, Calm rest → 2 * cs.length ≤ enough + 1 →
      readValue enough (cs ++ rest) = .ok (v, trail ++ rest) := by
  obtain ⟨trail, htrail, hread⟩ := spells_iff.1 h
  obtain ⟨seg, rfl, hseg⟩ := (readers_segment _).1 _ _ _ hread
  refine ⟨trail, htrail, fun rest enough hcalm henough => ?_⟩
  have hadjoins : Adjoins (trail ++ []) (trail ++ rest) := Adjoins.append (.inr hcalm) trail
  rw [List.append_nil] at hadjoins
  rw [List.length_append] at henough
  rw [List.append_assoc]
  exact hseg (trail ++ rest) enough hadjoins (by omega)

/-- Only a quote begins a string, and only a brace an object. -/
theorem readValue_cases {fuel : Nat} {cs rest : List Char} {v : Value} (h : readValue (fuel + 1) cs = .ok (v, rest)) :
    (∃ key text, skipSpace cs = '"' :: key ∧ readString fuel key = .ok (text, rest) ∧
        v = .string (String.ofList text)) ∨
      (∃ body members, skipSpace cs = '\x7b' :: body ∧ readMembers fuel true body = .ok (members, rest) ∧
        v = .object (Node.ofMembers members)) ∨
      v.text? = none ∧ v.node? = none := by
  rw [readValue] at h
  split at h
  · cases h
  · obtain ⟨rfl, -⟩ := readLiteral_segment h
    exact .inr (.inr ⟨rfl, rfl⟩)
  · obtain ⟨rfl, -⟩ := readLiteral_segment h
    exact .inr (.inr ⟨rfl, rfl⟩)
  · obtain ⟨rfl, -⟩ := readLiteral_segment h
    exact .inr (.inr ⟨rfl, rfl⟩)
  · rename_i key hquote
    obtain ⟨text, left, hread, hlast⟩ := read_bind h
    cases hlast
    exact .inl ⟨key, text, hquote, hread, rfl⟩
  · obtain ⟨items, left, -, hlast⟩ := read_bind h
    cases hlast
    exact .inr (.inr ⟨rfl, rfl⟩)
  · rename_i body hbrace
    obtain ⟨members, left, hread, hlast⟩ := read_bind h
    cases hlast
    exact .inr (.inl ⟨body, members, hbrace, hread, rfl⟩)
  · obtain ⟨n, left, -, hlast⟩ := read_bind h
    cases hlast
    exact .inr (.inr ⟨rfl, rfl⟩)
  · split at h
    · obtain ⟨n, left, -, hlast⟩ := read_bind h
      cases hlast
      exact .inr (.inr ⟨rfl, rfl⟩)
    · cases h

/-- The text of a name is a string between blanks. -/
theorem Spells.key {cs : List Char} {name : String} (h : Spells cs (.string name)) :
    ∃ lead key blank, Blank lead ∧ Blank blank ∧ cs = lead ++ '"' :: (key ++ blank) ∧
      ∀ other enough, key.length ≤ enough → readString enough (key ++ other) = .ok (name.toList, other) := by
  obtain ⟨blank, hblank, hread⟩ := spells_iff.1 h
  rcases readValue_cases hread with ⟨key, text, hquote, hstring, hname⟩ | ⟨_, _, _, _, hname⟩ | ⟨hname, -⟩
  · cases hname
    obtain ⟨lead, hlead, rfl⟩ := (skipSpace_eq_cons_iff rfl).1 hquote
    obtain ⟨seg, rfl, hseg⟩ := readString_segment hstring
    rw [String.toList_ofList]
    exact ⟨lead, seg, blank, hlead, hblank, rfl, hseg⟩
  · cases hname
  · cases hname

/-- A name that is read before a colon is a document of its own, with the blanks around it. -/
theorem spells_key {fuel : Nat} {key name lead blank rest : List Char}
    (h : readString fuel key = .ok (name, blank ++ rest)) (hlead : Blank lead) (hblank : Blank blank) :
    ∃ text, lead ++ '"' :: key = text ++ rest ∧ Spells text (.string (String.ofList name)) :=
  spells_segment (readValue_string hlead h) hblank

/-! ### One member after the other -/

/-- what comes before the members that are left: nothing, or the comma after the member in front of them -/
def Opens (first : Bool) (before : List Char) : Prop :=
  if first then before = [] else ∃ blank, Blank blank ∧ before = blank ++ [',']

theorem separates_iff {first : Bool} {lead : List Char} :
    Separates first lead ↔ ∃ before after, Opens first before ∧ Blank after ∧ lead = before ++ after := by
  cases first with
  | true =>
    constructor
    · intro h
      exact ⟨[], lead, rfl, h, rfl⟩
    · rintro ⟨_, after, rfl, hafter, rfl⟩
      exact hafter
  | false =>
    constructor
    · rintro ⟨before, after, hbefore, hafter, rfl⟩
      exact ⟨before ++ [','], after, ⟨before, hbefore, rfl⟩, hafter, by simp⟩
    · rintro ⟨_, after, ⟨before, hbefore, rfl⟩, hafter, rfl⟩
      exact ⟨before, after, hbefore, hafter, by simp⟩

/-- A name and a value, each a document of its own, are read as a member; blanks after the value are left. -/
theorem readsMember_of_spells {key value : List Char} {name : String} {v : Value} (hkey : Spells key (.string name))
    (hvalue : Spells value v) :
    ∃ trail, Blank trail ∧ ∀ first before rest enough, Opens first before → Calm rest →
      2 * (key.length + value.length) ≤ enough →
        ReadsMember enough first (before ++ (key ++ ':' :: (value ++ rest))) name.toList v (trail ++ rest) := by
  obtain ⟨lead, seg, blank, hlead, hblank, rfl, hseg⟩ := hkey.key
  obtain ⟨trail, htrail, hread⟩ := hvalue.segment
  refine ⟨trail, htrail, fun first before rest enough hbefore hrest henough => ?_⟩
  simp only [List.length_append, List.length_cons] at henough
  have hname : readString enough (seg ++ (blank ++ ':' :: (value ++ rest))) =
      .ok (name.toList, blank ++ ':' :: (value ++ rest)) := hseg _ enough (by omega)
  exact ⟨before ++ lead, _, blank, _, separates_iff.2 ⟨before, lead, hbefore, hlead, rfl⟩, hblank, by simp, hname,
    hread rest enough hrest (by omega)⟩

/-- A member that is read before blanks is a name and a value, each a document of its own. -/
theorem spells_of_readsMember {fuel : Nat} {first : Bool} {cs name blank rest : List Char} {v : Value}
    (h : ReadsMember fuel first cs name v (blank ++ rest)) (hblank : Blank blank) :
    ∃ before key value, Opens first before ∧ cs = before ++ (key ++ ':' :: (value ++ rest)) ∧
      Spells key (.string (String.ofList name)) ∧ Spells value v := by
  obtain ⟨lead, quoted, gap, body, hlead, hgap, rfl, hname, hv⟩ := h
  obtain ⟨before, after, hbefore, hafter, rfl⟩ := separates_iff.1 hlead
  obtain ⟨key, hkey, hspells⟩ := spells_key hname hafter hgap
  obtain ⟨value, rfl, hvalue⟩ := spells_segment hv hblank
  exact ⟨before, key, value, hbefore, by rw [List.append_assoc, hkey], hspells, hvalue⟩

theorem calm_comma (rest : List Char) : Calm (',' :: rest) := by
  rintro c ⟨⟩
  decide

theorem calm_brace (rest : List Char) : Calm ('\x7d' :: rest) := by
  rintro c ⟨⟩
  decide

theorem readMembers_cons {fuel : Nat} {first : Bool} {cs after rest : List Char} {name : String} {v : Value}
    {others : List (String × Value)} (h : ReadsMember fuel first cs name.toList v after)
    (hothers : readMembers fuel false after = .ok (others, rest)) :
    readMembers (fuel + 1) first cs = .ok ((name, v) :: others, rest) :=
  readMembers_eq_ok_iff.2 (.inr ⟨name.toList, v, others, after, by rw [String.ofList_toList], h, hothers⟩)

/-- The members that a text spells are read from it. -/
theorem MembersText.read {body : List Char} {members : List (String × Value)} (h : MembersText body members) :
    ∀ first before other enough, Opens first before → 2 * body.length + 2 ≤ enough →
      readMembers enough first (before ++ (body ++ '\x7d' :: other)) = .ok (members, other) := by
  induction h with
  | @one key value name v hkey hvalue =>
    intro first before other enough hbefore henough
    obtain ⟨trail, htrail, hmember⟩ := readsMember_of_spells hkey hvalue
    simp only [List.length_append, List.length_cons] at henough
    obtain ⟨n, rfl⟩ : ∃ n, enough = n + 2 := ⟨enough - 2, by omega⟩
    rw [List.append_assoc, List.cons_append]
    have hreads := hmember first before ('\x7d' :: other) (n + 1) hbefore (calm_brace other) (by omega)
    exact readMembers_cons hreads (readMembers_eq_ok_iff.2 (.inl ⟨rfl, trail, htrail, rfl⟩))
  | @more key value rest name v members hkey hvalue _ ih =>
    intro first before other enough hbefore henough
    obtain ⟨trail, htrail, hmember⟩ := readsMember_of_spells hkey hvalue
    simp only [List.length_append, List.length_cons] at henough
    obtain ⟨n, rfl⟩ : ∃ n, enough = n + 1 := ⟨enough - 1, by omega⟩
    rw [List.append_assoc, List.cons_append, List.append_assoc, List.cons_append]
    have hreads := hmember first before (',' :: (rest ++ '\x7d' :: other)) n hbefore (calm_comma _) (by omega)
    have hothers := ih false (trail ++ [',']) other n ⟨trail, htrail, rfl⟩ (by omega)
    rw [List.append_assoc, List.singleton_append] at hothers
    exact readMembers_cons hreads hothers

/-- Members that are read are none, or those that a text spells. -/
theorem membersText_of_read {fuel : Nat} {first : Bool} {cs rest : List Char} {members : List (String × Value)}
    (h : readMembers fuel first cs = .ok (members, rest)) :
    (members = [] ∧ ∃ lead, Blank lead ∧ cs = lead ++ '\x7d' :: rest) ∨
      ∃ before body, Opens first before ∧ cs = before ++ (body ++ '\x7d' :: rest) ∧ MembersText body members := by
  induction fuel generalizing first cs members with
  | zero => cases h
  | succ fuel ih =>
    rcases readMembers_eq_ok_iff.1 h with hnone | ⟨name, v, others, after, rfl, hmember, hothers⟩
    · exact .inl hnone
    · right
      rcases ih hothers with ⟨rfl, blank, hblank, rfl⟩ | ⟨_, body, ⟨blank, hblank, rfl⟩, rfl, hbody⟩
      · obtain ⟨before, key, value, hbefore, rfl, hkey, hvalue⟩ := spells_of_readsMember hmember hblank
        exact ⟨before, _, hbefore, by simp, .one hkey hvalue⟩
      · rw [List.append_assoc] at hmember
        obtain ⟨before, key, value, hbefore, rfl, hkey, hvalue⟩ := spells_of_readsMember hmember hblank
        exact ⟨before, _, hbefore, by simp, .more hkey hvalue hbody⟩

/-! ## Reading an object -/

theorem spells_object_of_text {cs : List Char} {members : List (String × Value)} (h : ObjectText cs members) :
    Spells cs (.object (Node.ofMembers members)) := by
  cases h with
  | @empty lead mid trail hlead hmid htrail =>
    refine spells_iff.2 ⟨trail, htrail, readValue_object hlead ?_⟩
    exact readMembers_eq_ok_iff.2 (.inl ⟨rfl, mid, hmid, rfl⟩)
  | @members lead body trail _ hlead hbody htrail =>
    refine spells_iff.2 ⟨trail, htrail, readValue_object hlead ?_⟩
    have hopens : Opens true [] := rfl
    exact hbody.read true [] trail _ hopens (by simp only [List.length_append, List.length_cons]; omega)

theorem text_of_spells_object {cs : List Char} {node : Node} (h : Spells cs (.object node)) :
    ∃ members, ObjectText cs members ∧ node = Node.ofMembers members := by
  obtain ⟨trail, htrail, hread⟩ := spells_iff.1 h
  rcases readValue_cases hread with ⟨_, _, _, _, hv⟩ | ⟨body, members, hbrace, hmembers, hv⟩ | ⟨-, hv⟩
  · cases hv
  · cases hv
    obtain ⟨lead, hlead, rfl⟩ := (skipSpace_eq_cons_iff rfl).1 hbrace
    refine ⟨members, ?_, rfl⟩
    rcases membersText_of_read hmembers with ⟨rfl, mid, hmid, rfl⟩ | ⟨before, text, hbefore, rfl, htext⟩
    · exact .empty hlead hmid htrail
    · cases hbefore
      exact .members hlead htext htrail
  · cases hv

/-- **An object is read from its members by one law.** Every text of an object with these members is read as the node
that resolves them, and no other node does; every text that is read as an object is such a text. Inserting entries
into an object one after the other follows the law for fields, and leaves the kind alone. -/
theorem read_members :
    (∀ text members, ObjectText text.toList members →
      ∃ node, read text = .ok (.object node) ∧ Resolves members node ∧ ∀ other, Resolves members other → other = node) ∧
    (∀ text node, read text = .ok (.object node) → ∃ members, ObjectText text.toList members ∧ Resolves members node) ∧
    ∀ (node : Node) (calls : List (String × Value)), (node.fields.map Prod.fst).Nodup →
      (calls.foldl (fun n c => n.insert c.1 c.2) node).tag = node.tag ∧
        Settles (node.fields ++ calls) (calls.foldl (fun n c => n.insert c.1 c.2) node).fields := by
  refine ⟨fun text members htext => ?_, fun text node hread => ?_, fun node calls hnodup => ?_⟩
  · have hspells := spells_object_of_text htext
    rw [Spells, String.ofList_toList] at hspells
    exact ⟨_, hspells, resolves_ofMembers members, fun other hother => (resolves_ofMembers members).unique hother⟩
  · have hspells : Spells text.toList (.object node) := by rwa [Spells, String.ofList_toList]
    obtain ⟨members, htext, rfl⟩ := text_of_spells_object hspells
    exact ⟨members, htext, resolves_ofMembers members⟩
  · exact settles_foldl_insert (settles_self hnodup) calls

/-- an object that names its kind twice, with a number and a list under the discriminator before and after, and that
has one of its other names twice -/
def repeated : String :=
  "\x7b\"__node__\": 1,\"b\":2,\"__node__\":\"Name\",\"a\":null,\"b\":[3],\"__node__\":\"Tuple\",\"__node__\":[]\n\x7d"

/-- its members, in order -/
def repeatedMembers : List (String × Value) := [
  ("__node__", .number (.int 1)), ("b", .number (.int 2)), ("__node__", .string "Name"), ("a", .null),
  ("b", .array [.number (.int 3)]), ("__node__", .string "Tuple"), ("__node__", .array [])]

/-- what they make -/
def repeatedNode : Node := ⟨some "Tuple", [("__node__", .array []), ("b", .array [.number (.int 3)]), ("a", .null)]⟩

theorem objectText_repeated : ObjectText repeated.toList repeatedMembers := by
  obtain ⟨hkind, ha, hb⟩ : Spells "\"__node__\"".toList (.string "__node__") ∧ Spells "\"a\"".toList (.string "a") ∧
      Spells "\"b\"".toList (.string "b") := by
    simp only [Spells, read, String.toList_ofList, String.reduceToList]
    exact ⟨rfl, rfl, rfl⟩
  obtain ⟨hone, htwo, hthree⟩ : Spells " 1".toList (.number (.int 1)) ∧ Spells "2".toList (.number (.int 2)) ∧
      Spells "[3]".toList (.array [.number (.int 3)]) := by
    simp only [Spells, read, String.toList_ofList, String.reduceToList]
    exact ⟨rfl, rfl, rfl⟩
  obtain ⟨hname, htuple, hnull, hlist⟩ : Spells "\"Name\"".toList (.string "Name") ∧
      Spells "\"Tuple\"".toList (.string "Tuple") ∧ Spells "null".toList .null ∧ Spells "[]\n".toList (.array []) := by
    simp only [Spells, read, String.toList_ofList, String.reduceToList]
    exact ⟨rfl, rfl, rfl, rfl⟩
  have htext := ObjectText.members blank_nil (.more hkind hone (.more hb htwo (.more hkind hname
    (.more ha hnull (.more hb hthree (.more hkind htuple (.one hkind hlist))))))) blank_nil
  simp only [String.reduceToList] at htext
  simp only [repeated, String.reduceToList]
  exact htext

theorem read_repeated : read repeated = .ok (.object repeatedNode) := by
  unfold read repeated
  simp only [String.reduceToList]
  rfl

/-- Of such members the last text under the discriminator names the kind, what was a number there is a list at last, and
each name keeps its place. So it is when entries are inserted. -/
theorem read_members_repeated :
    ObjectText repeated.toList repeatedMembers ∧
    (∃ node, read repeated = .ok (.object node) ∧ Resolves repeatedMembers node ∧
      ∀ other, Resolves repeatedMembers other → other = node) ∧
    read repeated = .ok (.object repeatedNode) ∧
    (∃ members, ObjectText repeated.toList members ∧ Resolves members repeatedNode) ∧
    (repeatedNode.fields.map Prod.fst).Nodup ∧
    Settles (repeatedNode.fields ++ [("c", .null), ("b", .bool true), ("c", .bool false)])
      [("__node__", .array []), ("b", .bool true), ("a", .null), ("c", .bool false)] := by
  have hnodup : (repeatedNode.fields.map Prod.fst).Nodup := by decide
  exact ⟨objectText_repeated, read_members.1 _ _ objectText_repeated, read_repeated, read_members.2.1 _ _ read_repeated,
    hnodup, (read_members.2.2 repeatedNode [("c", .null), ("b", .bool true), ("c", .bool false)] hnodup).2⟩

end Graft.Document
