import Circulation.Lcd.Path
import Circulation.Proofs.Except
import Circulation.Proofs.Text.Percent

/-!
# Request targets

A server takes a request target apart into the segments of its path and the parameters of its query
and decodes each of them. The path of a query is a target that comes apart into the documented names
and the arguments of the query, whatever characters the arguments hold.

## Main definitions

* `Circulation.Lcd.Target`, `Circulation.Lcd.Target.text` — targets and their texts.
* `Circulation.Lcd.Target.ofText?` — how a server takes a target apart.
* `Circulation.Lcd.Resource`, `Circulation.Lcd.Resource.ofText?` — what a documented target asks for.

## Main results

* `Circulation.Lcd.Target.ofText?_text` — a target comes apart into what it is made of.
* `Circulation.Lcd.ofText?_path` — the path of a query asks for what the query asks for.
-/

namespace Circulation.Lcd

/-! ### Targets -/

/-- A request target: the segments of its path, and the names and values of its query. -/
structure Target where
  segments : List String
  params : List (String × String)
  deriving DecidableEq, Repr

namespace Target

/-- The path of a target, with a slash before every segment. -/
def pathText (segments : List String) : List Char :=
  ['/'].intercalate ([] :: segments.map fun s => (Text.percentEncode s).toList)

/-- A name and its value. -/
def paramText (p : String × String) : List Char :=
  (Text.percentEncode p.1).toList ++ '=' :: (Text.percentEncode p.2).toList

/-- The query of a target, with an ampersand between two parameters. -/
def queryText (params : List (String × String)) : List Char :=
  ['&'].intercalate (params.map paramText)

/-- The text of a target. -/
def text (t : Target) : String :=
  String.ofList (pathText t.segments ++ if t.params = [] then [] else '?' :: queryText t.params)

/-- What stands before the first of a mark and what stands after it. -/
def splitFirst (mark : Char) (cs : List Char) : List Char × List Char :=
  (cs.takeWhile (· != mark), (cs.dropWhile (· != mark)).drop 1)

/-- The decoded segments of a path that begins with a slash. -/
def segments? (path : List Char) : Option (List String) :=
  match path.splitOn '/' with
  | [] :: segments => segments.mapM Text.percentDecodeText?
  | _ => none

/-- A decoded name and its value. -/
def param? (cs : List Char) : Option (String × String) := do
  let (name, value) := splitFirst '=' cs
  return (← Text.percentDecodeText? name, ← Text.percentDecodeText? value)

/-- The decoded parameters of a query. -/
def params? (query : List Char) : Option (List (String × String)) :=
  if query = [] then some [] else (query.splitOn '&').mapM param?

/-- The target of a text, which is a path up to a question mark and a query after it. -/
def ofText? (s : String) : Option Target := do
  let (path, query) := splitFirst '?' s.toList
  return ⟨← segments? path, ← params? query⟩

/-! ### Taking apart -/

theorem splitFirst_append {mark : Char} {before : List Char} (h : mark ∉ before) (after : List Char) :
    splitFirst mark (before ++ mark :: after) = (before, after) := by
  have hbefore : ∀ c ∈ before, (c != mark) = true :=
    fun c hc => bne_iff_ne.mpr fun heq => h (heq ▸ hc)
  rw [splitFirst, List.takeWhile_append_of_pos hbefore, List.dropWhile_append_of_pos hbefore,
    List.takeWhile_cons_of_neg (by simp), List.dropWhile_cons_of_neg (by simp), List.append_nil,
    List.drop_one, List.tail_cons]

theorem splitFirst_of_not_mem {mark : Char} {cs : List Char} (h : mark ∉ cs) :
    splitFirst mark cs = (cs, []) := by
  have hcs : ∀ c ∈ cs, (c != mark) = true := fun c hc => bne_iff_ne.mpr fun heq => h (heq ▸ hc)
  have htake : (cs ++ []).takeWhile (· != mark) = cs ++ [] := List.takeWhile_append_of_pos hcs
  have hdrop : (cs ++ []).dropWhile (· != mark) = [] := List.dropWhile_append_of_pos hcs
  rw [List.append_nil] at htake hdrop
  rw [splitFirst, htake, hdrop, List.drop_nil]

theorem not_mem_intercalate {c mark : Char} (hne : c ≠ mark) {parts : List (List Char)}
    (h : ∀ part ∈ parts, c ∉ part) : c ∉ [mark].intercalate parts := by
  induction parts with
  | nil => exact List.not_mem_nil
  | cons part parts ih =>
    obtain ⟨hpart, hrest⟩ := List.forall_mem_cons.mp h
    cases parts with
    | nil => rwa [List.intercalate_singleton]
    | cons part' parts =>
      rw [List.intercalate_cons_cons, List.mem_append, List.mem_append, List.mem_singleton]
      rintro ((hmem | hmem) | hmem)
      · exact hpart hmem
      · exact hne hmem
      · exact ih hrest hmem

theorem param?_paramText (p : String × String) : param? (paramText p) = some p := by
  have hmark : '=' ∉ (Text.percentEncode p.1).toList := Text.not_mem_percentEncode (by decide) p.1
  simp only [param?, paramText, splitFirst_append hmark, Text.percentDecodeText?_percentEncode]
  rfl

theorem not_mem_paramText (p : String × String) : '&' ∉ paramText p := by
  rw [paramText, List.mem_append, List.mem_cons]
  rintro (hmem | heq | hmem)
  · exact Text.not_mem_percentEncode (by decide) p.1 hmem
  · exact absurd heq (by decide)
  · exact Text.not_mem_percentEncode (by decide) p.2 hmem

theorem segments?_pathText (segments : List String) :
    segments? (pathText segments) = some segments := by
  have hparts : ∀ part ∈ [] :: segments.map fun s => (Text.percentEncode s).toList, '/' ∉ part :=
    List.forall_mem_cons.mpr ⟨List.not_mem_nil,
      List.forall_mem_map.mpr fun s _ => Text.not_mem_percentEncode (by decide) s⟩
  rw [segments?, pathText, List.splitOn_intercalate '/' hparts (List.cons_ne_nil _ _)]
  exact mapM_map_eq_some Text.percentDecodeText?_percentEncode segments

theorem params?_queryText (params : List (String × String)) :
    params? (queryText params) = some params := by
  cases params with
  | nil => rfl
  | cons p ps =>
    have hne : queryText (p :: ps) ≠ [] := by cases ps <;> simp [queryText, paramText]
    have hparts : ∀ part ∈ (p :: ps).map paramText, '&' ∉ part :=
      List.forall_mem_map.mpr fun p _ => not_mem_paramText p
    rw [params?, if_neg hne, queryText, List.splitOn_intercalate '&' hparts (List.cons_ne_nil _ _)]
    exact mapM_map_eq_some param?_paramText (p :: ps)

/-- **A target comes apart** into what it is made of. -/
theorem ofText?_text (t : Target) : ofText? t.text = some t := by
  have hpath : '?' ∉ pathText t.segments :=
    not_mem_intercalate (by decide) (List.forall_mem_cons.mpr ⟨List.not_mem_nil,
      List.forall_mem_map.mpr fun s _ => Text.not_mem_percentEncode (by decide) s⟩)
  have hsplit : splitFirst '?' t.text.toList = (pathText t.segments, queryText t.params) := by
    rw [text, String.toList_ofList]
    split_ifs with hparams
    · rw [List.append_nil, splitFirst_of_not_mem hpath, hparams]
      rfl
    · exact splitFirst_append hpath _
  rw [ofText?, hsplit]
  simp only [segments?_pathText, params?_queryText]
  rfl

end Target

/-! ### Resources -/

/-- What the documented targets ask for. -/
inductive Resource where
  | latestBlock
  | supply (denom : String)
  | escrow (denom : String)
  | communityPool
  | balance (address denom : String)
  | moduleAccount (name : String)
  | account (address : String)
  | claims (tier : ClaimTier)
  deriving DecidableEq, Repr

namespace Resource

/-- The resource of a target, if it is documented. -/
def ofTarget? (t : Target) : Option Resource :=
  match t.segments, t.params with
  | ["cosmos", "base", "tendermint", "v1beta1", "blocks", "latest"], [] => some .latestBlock
  | ["cosmos", "bank", "v1beta1", "supply", "by_denom"], [("denom", denom)] => some (.supply denom)
  | ["ibc", "apps", "transfer", "v1", "denoms", denom, "total_escrow"], [] => some (.escrow denom)
  | ["cosmos", "distribution", "v1beta1", "community_pool"], [] => some .communityPool
  | ["cosmos", "bank", "v1beta1", "balances", address, "by_denom"], [("denom", denom)] =>
    some (.balance address denom)
  | ["cosmos", "auth", "v1beta1", "module_accounts", name], [] => some (.moduleAccount name)
  | ["cosmos", "auth", "v1beta1", "accounts", address], [] => some (.account address)
  | ["LumeraProtocol", "lumera", "claim", "list_claimed", tier], [] =>
    (ClaimTier.all.find? fun t => toString t.number == tier).map .claims
  | _, _ => none

/-- The target of a resource. -/
def target : Resource → Target
  | latestBlock => ⟨["cosmos", "base", "tendermint", "v1beta1", "blocks", "latest"], []⟩
  | supply denom => ⟨["cosmos", "bank", "v1beta1", "supply", "by_denom"], [("denom", denom)]⟩
  | escrow denom => ⟨["ibc", "apps", "transfer", "v1", "denoms", denom, "total_escrow"], []⟩
  | communityPool => ⟨["cosmos", "distribution", "v1beta1", "community_pool"], []⟩
  | balance address denom =>
    ⟨["cosmos", "bank", "v1beta1", "balances", address, "by_denom"], [("denom", denom)]⟩
  | moduleAccount name => ⟨["cosmos", "auth", "v1beta1", "module_accounts", name], []⟩
  | account address => ⟨["cosmos", "auth", "v1beta1", "accounts", address], []⟩
  | claims tier => ⟨["LumeraProtocol", "lumera", "claim", "list_claimed", toString tier.number], []⟩

/-- The resource that a text asks for. -/
def ofText? (s : String) : Option Resource :=
  (Target.ofText? s).bind ofTarget?

theorem ofTarget?_target (r : Resource) : ofTarget? r.target = some r := by
  cases r with
  | claims tier => cases tier <;> rfl
  | _ => rfl

end Resource

/-- What a query asks for. -/
def resource : Query → Resource
  | .height => .latestBlock
  | .totalSupply denom => .supply denom
  | .escrow denom => .escrow denom
  | .communityPool _ => .communityPool
  | .balance address denom => .balance address denom
  | .moduleAddress name => .moduleAccount name
  | .account address => .account address
  | .claims tier _ => .claims tier

theorem isPlain_number (tier : ClaimTier) : Text.isPlain (toString tier.number) = true := by
  cases tier <;> decide

/-- The path of a query is the text of its target: the documented names are their own encodings, so
only the arguments need to be encoded. -/
theorem path_eq_text (q : Query) : path q = (resource q).target.text := by
  rw [← String.toList_inj, path, String.toList_join, Target.text, String.toList_ofList]
  cases q with
  | claims tier denom =>
    have htier := Text.percentEncode_eq_self (isPlain_number tier)
    simp (disch := decide) only [pathParts, resource, Resource.target, Target.pathText,
      PathPart.text, List.map_cons, List.map_nil, List.flatMap_cons, List.flatMap_nil,
      List.intercalate_cons_cons, List.intercalate_singleton, List.append_assoc, List.append_nil,
      if_true, Text.percentEncode_eq_self, htier]
    rfl
  | _ =>
    simp (disch := decide) only [pathParts, resource, Resource.target, Target.pathText,
      Target.queryText, Target.paramText, PathPart.text, List.map_cons, List.map_nil,
      List.flatMap_cons, List.flatMap_nil, List.intercalate_cons_cons, List.intercalate_singleton,
      List.append_assoc, List.append_nil, if_true, reduceCtorEq, if_false,
      Text.percentEncode_eq_self]
    rfl

/-- **The path of a query asks for what the query asks for**, whatever its arguments are. -/
theorem ofText?_path (q : Query) : Resource.ofText? (path q) = some (resource q) := by
  rw [path_eq_text, Resource.ofText?, Target.ofText?_text, Option.bind_some,
    Resource.ofTarget?_target]

end Circulation.Lcd
