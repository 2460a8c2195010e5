/-
Converting a value to its full depth, and where the faults stem from.

The converter counts down how deep values nest. `convert_object` and `convert_array` do without the count: a node is
converted by its construction, and a list item by item, with the converter itself for what is inside. `raises_convert`
accounts for every fault of a conversion (`Stems`): that of an unknown tag is of a node at a `Place`, and that of a
malformed node blames a node of the value, but for the two sorts that are at no known position: a value that is out of
place, and a link of a comparison in a list.
-/
import Graft.Proofs.Constructions

namespace Graft.Convert

open Graft.Document Attempt

/-- a value that says something, and is neither a node nor a list -/
structure Stray (v : Value) : Prop where
  present : v.isAbsent = false
  notNode : v.node? = none
  notList : v.items? = none

/-- what the faults of converting a value are about -/
inductive Stems (v : Value) : Fault → Prop where
  /-- a node at a place of the value, whose tag is not known -/
  | unknown {tag : String} {o : Node} {blank : Value} {C : Hole} : Kind.ofTag? tag = none → o.tag = some tag →
      Place tag blank C → v = C (.object o) → Stems v (.unknown tag o)
  /-- a node of the value -/
  | malformed {m : Node} {d : Defect} : Holds v (.object m) → Stems v (.of m d)
  /-- a link of a comparison that is an item of a list -/
  | link {items : List Value} {m : Node} : Holds v (.array items) → .object m ∈ items → m.tag = some "CascadedCmp" →
      Stems v (.malformed "CascadedCmp" .linkInList .unknown)
  /-- a value that is out of place -/
  | stray {x : Value} : Holds v x → Stray x → Stems v (.malformed x.kindName (.notANode x.kindName) .unknown)

/-- What a fault of an item is about is about the list. -/
theorem Stems.item {items : List Value} {x : Value} {fault : Fault} (hx : x ∈ items) (h : Stems x fault) :
    Stems (.array items) fault := by
  cases h with
  | unknown htag ho hC hv =>
    subst hv
    obtain ⟨before, after, rfl⟩ := List.append_of_mem hx
    exact .unknown htag ho hC.item rfl
  | malformed h => exact .malformed (.item hx h)
  | link h hm htag => exact .link (.item hx h) hm htag
  | stray h hstray => exact .stray (.item hx h) hstray

/-- What a fault of a value that is handed on is about is about the node that hands it on. -/
theorem Stems.inside {node : Node} {kind : Kind} {x : Value} {fault : Fault}
    (hkind : node.tag.bind Kind.ofTag? = some kind) (hx : Opens (.node kind.slots) (.object node) x)
    (h : Stems x fault) : Stems (.object node) fault := by
  cases h with
  | @unknown tag o blank C htag ho hC hv =>
    obtain ⟨D, hD, hleads⟩ := leads_of_opens htag ho hC hx hv
    rcases hleads with hleads | hleads
    · cases hleads with
      | @node _ _ m name _ D hslot hleads =>
        obtain rfl : node = m.insert name (D (.object o)) := Value.object.inj hD
        exact .unknown htag ho (.inside (m := m) hC hkind hslot hleads) rfl
    · cases hleads with
      | @node _ _ m name _ D hslot hleads =>
        obtain rfl : node = m.insert name (D (.object o)) := Value.object.inj hD
        exact .unknown htag ho (.empty (m := m) hkind hslot hleads) rfl
  | malformed h => exact .malformed (hx.holds.trans h)
  | link h hm htag => exact .link (hx.holds.trans h) hm htag
  | stray h hstray => exact .stray (hx.holds.trans h) hstray

/-- A node does the same with two converters that do the same with what it hands on. -/
theorem follows_convertNode {P : Fault → Prop} {c c' : Converter} {node : Node} (b : Binding)
    (halike : ∀ kind, node.tag.bind Kind.ofTag? = some kind → ∀ x b, Opens (.node kind.slots) (.object node) x →
      Follows P (c x b) (c' x b))
    (hunknown : ∀ tag, node.tag = some tag → Kind.ofTag? tag = none → P (.unknown tag node))
    (hown : ∀ m d, Holds (.object node) (.object m) → P (.of m d)) :
    Follows P (convertNode c node b) (convertNode c' node b) := by
  refine follows_contain _ ?_
  cases htag : node.tag with
  | none => exact follows_fail (hown node _ (.self _))
  | some tag =>
    cases hkind : Kind.ofTag? tag with
    | none => simpa only [hkind] using follows_fail (hunknown tag htag hkind)
    | some kind =>
      obtain ⟨others, hreads⟩ := construct_reads kind b
      simpa only [hkind] using hreads.follows (halike kind (by simp [htag, hkind])) hown

/-! ## Links of a comparison -/

/-- the fragment is no chain, or comes of a link of a comparison -/
def LinksOf (v : Value) (f : Fragment) : Prop :=
  ∀ first rest, f = .chain first rest → ∃ m, v = .object m ∧ m.tag = some "CascadedCmp"

/-- Of all constructions, only that of a link gives links. -/
theorem construct_chain (c : Converter) (node : Node) (b : Binding) (kind : Kind) :
    Yields (construct c node b kind) fun f => ∀ first rest, f = .chain first rest → kind = .cascadedCmp := by
  cases kind with
  | cascadedCmp => exact fun _ _ _ _ _ _ => rfl
  | noneLiteral | string | unicode | bytes | passStat | sizeof => exact yields_pure (fun _ _ => nofun)
  | statList | cVarDef => exact yields_then fun _ => yields_then fun _ => yields_pure fun _ _ => nofun
  | cDefExtern => exact yields_then fun _ => yields_pure fun _ _ => nofun
  | cEnumDef =>
    refine yields_then fun _ => yields_then fun _ => ?_
    split
    · exact yields_pure fun _ _ => nofun
    · exact yields_then fun _ => yields_pure fun _ _ => nofun
  | _ => exact yields_map fun _ _ _ => nofun

theorem linksOf_convertNode (c : Converter) (node : Node) (b : Binding) :
    Yields (convertNode c node b) (LinksOf (.object node)) := by
  refine yields_contain (fun _ _ => nofun) ?_
  split
  · exact yields_fail
  · rename_i tag htag
    split
    · exact yields_fail
    · rename_i kind hkind
      refine (construct_chain c node b kind).mono fun f hf first rest hchain => ?_
      have hlink : tag ∈ Kind.cascadedCmp.tags := Kind.mem_tags_of_ofTag? (hf first rest hchain ▸ hkind)
      obtain rfl : tag = "CascadedCmp" := List.mem_singleton.1 hlink
      exact ⟨node, rfl, htag⟩

theorem linksOf_convertWithin (depth : Nat) (v : Value) (b : Binding) :
    Yields (convertWithin depth v b) (LinksOf v) := by
  cases depth with
  | zero => exact yields_pure fun _ _ => nofun
  | succ depth =>
    cases hv : v.isAbsent with
    | true =>
      rw [convertWithin_absent depth hv]
      exact yields_pure fun _ _ => nofun
    | false =>
      cases v with
      | null => cases hv
      | object node => exact linksOf_convertNode _ node b
      | array items => exact yields_map fun _ _ _ => nofun
      | _ =>
        rw [convertWithin_stray depth hv rfl rfl]
        exact yields_contain (fun _ _ => nofun) yields_fail

theorem follows_convertItem {P : Fault → Prop} {c c' : Converter} {b : Binding} {item : Value}
    (h : Follows P (c item b) (c' item b)) (hlinks : Yields (c item b) (LinksOf item))
    (hlink : ∀ m, item = .object m → m.tag = some "CascadedCmp" → P (.malformed "CascadedCmp" .linkInList .unknown)) :
    Follows P (convertItem c b item) (convertItem c' b item) := by
  refine follows_bind_yields h hlinks fun fragment hfragment => ?_
  cases fragment with
  | chain first rest =>
    obtain ⟨m, hm, htag⟩ := hfragment first rest rfl
    exact follows_bind (follows_anomaly (hlink m hm htag)) fun _ => follows_pure _
  | _ => exact follows_pure _

/-! ## Counts that are deep enough -/

/-- Two counts that are deep enough make no difference, and what goes wrong is about the value. The counts below one node
or list are deep enough for what is inside. -/
theorem follows_convertWithin {depth more : Nat} {v : Value} (b : Binding) (h : v.depth ≤ depth) (h' : v.depth ≤ more) :
    Follows (Stems v) (convertWithin depth v b) (convertWithin more v b) := by
  induction depth generalizing more v b with
  | zero => exact absurd h (Nat.not_le_of_lt (depth_pos v))
  | succ depth ih =>
    cases more with
    | zero => exact absurd h' (Nat.not_le_of_lt (depth_pos v))
    | succ more =>
      cases hv : v.isAbsent with
      | true =>
        rw [convertWithin_absent depth hv, convertWithin_absent more hv]
        exact follows_pure _
      | false =>
        cases v with
        | null => cases hv
        | object node =>
          refine follows_convertNode b (fun kind hkind x b' hx => ?_) (fun tag htag hnone => ?_)
            fun m d hm => .malformed hm
          · have hlt : x.depth < (Value.object node).depth := by
              cases hx with
              | node _ hget hx => exact Nat.lt_of_le_of_lt hx.holds.depth_le (Node.depth_lt_of_get? hget)
            have hx' : Follows (Stems x) (convertWithin depth x b') (convertWithin more x b') :=
              ih b' (by omega) (by omega)
            exact hx'.mono fun fault hfault => hfault.inside hkind hx
          · exact .unknown hnone htag .here rfl
        | array items =>
          rw [convertWithin_array, convertWithin_array, convertItems, convertItems, map_eq_pure_bind, map_eq_pure_bind]
          refine follows_bind (follows_gather fun x hx => ?_) fun _ => follows_pure _
          have hlt : x.depth ≤ depthOfItems items := depth_le_depthOfItems hx
          rw [Value.depth] at h h'
          have hitem : Follows (Stems x) (convertWithin depth x b) (convertWithin more x b) := ih b (by omega) (by omega)
          refine follows_convertItem (hitem.mono fun fault hfault => hfault.item hx) (linksOf_convertWithin depth x b) ?_
          rintro m rfl htag
          exact .link (.self _) hx htag
        | _ =>
          rw [convertWithin_stray depth hv rfl rfl, convertWithin_stray more hv rfl rfl]
          exact follows_contain _ (follows_fail (.stray (.self _) ⟨hv, rfl, rfl⟩))

theorem convertWithin_eq {depth : Nat} {v : Value} (h : v.depth ≤ depth) (b : Binding) :
    convertWithin depth v b = convert v b :=
  (follows_convertWithin b h (Nat.le_refl _)).same

/-- **Every fault is accounted for.** What a conversion notes is about the value. -/
theorem raises_convert {v : Value} {b : Binding} {fault : Fault} (h : Raises (convert v b) fault) : Stems v fault :=
  (follows_convertWithin b (Nat.le_refl _) (Nat.le_refl _)).raises fault h

/-! ## Without the count -/

theorem convert_absent {v : Value} (h : v.isAbsent = true) (b : Binding) : convert v b = pure .absent := by
  obtain ⟨depth, hdepth⟩ := Nat.exists_eq_add_one.2 (depth_pos v)
  rw [convert, hdepth, convertWithin_absent depth h]

/-- A node is converted by the construction of its kind. -/
theorem convert_object (node : Node) (b : Binding) : convert (.object node) b = convertNode convert node b := by
  obtain ⟨depth, hdepth⟩ := Nat.exists_eq_add_one.2 (depth_pos (.object node))
  rw [convert, hdepth, convertWithin_object]
  refine (follows_convertNode (P := fun _ => True) b (fun kind _ x b' hx => ⟨?_, fun _ _ => trivial⟩)
    (fun _ _ _ => trivial) fun _ _ _ => trivial).same
  cases hx with
  | node _ hget hx =>
    have hlt := Nat.lt_of_le_of_lt hx.holds.depth_le (Node.depth_lt_of_get? hget)
    exact convertWithin_eq (by omega) b'

/-- A node is converted as the kind that its tag names, and its failure is contained. -/
theorem convert_tagged {node : Node} {tag : String} {kind : Kind} (htag : node.tag = some tag) (hkind : tag ∈ kind.tags)
    (b : Binding) : convert (.object node) b = Attempt.contain .absent (construct convert node b kind) := by
  have hbind : node.tag.bind Kind.ofTag? = some kind := by
    rw [htag, Option.bind_some]
    exact Kind.ofTag?_of_mem_tags hkind
  rw [convert_object, convertNode_kind convert hbind]

/-- A list is converted item by item. -/
theorem convert_array (items : List Value) (b : Binding) : convert (.array items) b = convertItems convert items b := by
  rw [convert, Value.depth, convertWithin_array, convertItems, convertItems, map_eq_pure_bind, map_eq_pure_bind]
  refine (follows_bind (P := fun _ => True) (follows_gather fun x hx => ?_) fun _ => follows_pure _).same
  exact follows_convertItem ⟨convertWithin_eq (depth_le_depthOfItems hx) b, fun _ _ => trivial⟩
    (linksOf_convertWithin _ x b) fun _ _ _ => trivial

end Graft.Convert
