import Dataflow.Proofs.Closed
import Dataflow.Proofs.Lines
import Dataflow.Proofs.Parsed

/-!
# Generated functions are hygienic

The functions of a graph are written as anonymous functions inside of the factory. Their parameters
are written as the names that the anonymous function binds for them, and their free names stay free:
neither the function nor the factory binds them (`hygienic_of_allPass`).

What is written is given token by token. The text of a function is a head with the bound names in
order, and behind the arrow come the tokens of the function and single spaces, where the token of a
parameter is written as the bound name at its position (`Spaced`).
-/

namespace Dataflow

/-! ### Bound names -/

/-- The names that a function of `n` parameters binds: one for the whole tuple if there is one
parameter, else one for each position. -/
def boundNames (n : Nat) : List String :=
  if n = 1 then ["$t"] else (List.range n).map fun i => "$x" ++ toString i

/-- The head of a function of `n` parameters. -/
def headText (n : Nat) : String :=
  if n = 1 then "($t)" else "([" ++ ", ".intercalate (boundNames n) ++ "])"

section Names

variable {n : Nat} {name : String}

theorem names_mapParams (h : 1 ≤ n) : (mapParams n).names = boundNames n := by
  unfold mapParams boundNames
  by_cases hn : n = 1
  · simp [hn, Params.names, tupleName]
  · have hlt : 1 < n := by omega
    simp [hn, hlt, Params.names]

theorem lambdaHead_mapParams (h : 1 ≤ n) : Script.lambdaHead (mapParams n) = headText n := by
  unfold mapParams headText boundNames
  by_cases hn : n = 1
  · simp only [hn, Nat.lt_irrefl, if_false, if_true]
    decide
  · have hlt : 1 < n := by omega
    simp only [hn, hlt, if_false, if_true, Script.lambdaHead]

theorem length_names_mapParams (h : 1 ≤ n) : (mapParams n).names.length = n := by
  unfold mapParams
  split
  · simp [Params.names]
  · simp only [Params.names, List.length_singleton]
    omega

theorem nodup_names_mapParams (n : Nat) : (mapParams n).names.Nodup := by
  unfold mapParams
  split
  · refine List.pairwise_map.2 (List.nodup_range.imp fun {i j} hij heq => hij ?_)
    exact toString_injective ((String.append_right_inj "$x").1 heq)
  · simp [Params.names]

/-- A bound name is a dollar sign and an identifier. -/
theorem exists_of_mem_names (h : name ∈ (mapParams n).names) :
    ∃ c r, name.toList = '$' :: c :: r ∧ isNameStart c = true ∧ ∀ d ∈ r, isNameChar d = true := by
  unfold mapParams at h
  split at h
  · obtain ⟨i, -, rfl⟩ := List.mem_map.1 h
    obtain ⟨c, r, hcr, hc, hr, -⟩ := exists_digits i
    refine ⟨'x', c :: r, by rw [String.toList_append, hcr]; rfl, by decide, ?_⟩
    exact List.forall_mem_cons.2 ⟨isNameChar_of_isDigit hc, fun d hd =>
      isNameChar_of_isDigit (hr d hd)⟩
  · rw [List.mem_singleton.1 h]
    exact ⟨'t', [], rfl, by decide, List.forall_mem_nil _⟩

theorem isIdentifier_of_mem_names (h : name ∈ (mapParams n).names) : isIdentifier name = false := by
  obtain ⟨c, r, hcr, -⟩ := exists_of_mem_names h
  have hdollar : isNameStart '$' = false := by decide
  simp [isIdentifier, hcr, hdollar]

end Names

/-! ### The tokens of a function -/

/-- The parameter that a token is. -/
def Token.param? : Token → Option UInt32
  | param i => some i
  | _ => none

namespace Expr

@[simp] theorem filterMap_param?_symbol (s : Symbol) (ts : List Token) :
    (.symbol s :: ts).filterMap Token.param? = ts.filterMap Token.param? := rfl

theorem filterMap_param?_groupTokens (needed : Bool) (ts : List Token) :
    (groupTokens needed ts).filterMap Token.param? = ts.filterMap Token.param? := by
  cases needed <;> simp [groupTokens]

theorem filterMap_param?_itemTokens {es : List Expr}
    (h : ∀ e ∈ es, e.tokens.filterMap Token.param? = e.paramRefs.map Prod.fst) :
    (itemTokens es).filterMap Token.param? = (es.flatMap paramRefs).map Prod.fst := by
  induction es with
  | nil => simp [itemTokens]
  | cons e es ih =>
    obtain ⟨he, hes⟩ := List.forall_mem_cons.1 h
    cases es with
    | nil => simp [itemTokens, he]
    | cons f es => simp [itemTokens, he, ih hes]

/-- The parameters among the tokens of an expression are its references, in order. -/
theorem filterMap_param?_tokens (e : Expr) :
    e.tokens.filterMap Token.param? = e.paramRefs.map Prod.fst := by
  induction e using induction_children with
  | h e ih =>
    rw [paramRefs_eq]
    cases e with
    | literal s v => cases v <;> simp [tokens, Literal.token, Token.param?, ownParam, children]
    | param s i => simp [tokens, Token.param?, ownParam, children]
    | ident s n => simp [tokens, Token.param?, ownParam, children]
    | tuple s items =>
      have hitems : (itemTokens items).filterMap Token.param? =
          (items.flatMap paramRefs).map Prod.fst :=
        filterMap_param?_itemTokens ih
      simp [tokens, hitems, ownParam, children]
    | index s b i =>
      obtain ⟨hb, hi⟩ := List.forall_mem_cons.1 ih
      simp [tokens, filterMap_param?_groupTokens, hb, hi, ownParam, children]
    | field s b n =>
      have hb := ih b (by simp [children])
      simp [tokens, filterMap_param?_groupTokens, hb, Token.param?, ownParam, children]
    | call s f args =>
      obtain ⟨hf, hargs⟩ := List.forall_mem_cons.1 ih
      have hitems := filterMap_param?_itemTokens hargs
      simp [tokens, filterMap_param?_groupTokens, hf, hitems, ownParam, children]
    | unary s op e =>
      have he := ih e (by simp [children])
      simp [tokens, filterMap_param?_groupTokens, he, ownParam, children]
    | binary s op l r =>
      obtain ⟨hl, hr⟩ := List.forall_mem_cons.1 ih
      simp [tokens, filterMap_param?_groupTokens, hl, hr, ownParam, children]

end Expr

theorem starts_cons_of_isDigit {c : Char} (h : c.isDigit = true) (r : List Char) :
    Starts (c :: r) :=
  ⟨c, rfl, isBlank_of_isDigit h, ne_equals_of (by decide) h⟩

theorem exists_digitChars (n : Nat) : ∃ c r, Decimal.digitChars n = c :: r ∧ c.isDigit = true := by
  obtain ⟨c, r, hcr, hc, -⟩ := exists_digits n
  exact ⟨c, r, Nat.toList_repr.symm.trans hcr, hc⟩

theorem starts_positional (d : Decimal) : Starts d.positional := by
  obtain ⟨c, r, hcr, hc⟩ := exists_digitChars d.digits
  unfold Decimal.positional
  rw [hcr]
  dsimp only
  split
  · exact starts_cons_of_isDigit hc _
  · split
    · next hlt =>
      obtain ⟨k, hk⟩ := Nat.exists_eq_add_of_lt hlt
      have htake : (c :: r).length - (-d.scale).toNat = k + 1 := by omega
      rw [htake, List.take_succ_cons]
      exact starts_cons_of_isDigit hc _
    · exact starts_cons_of_isDigit (by decide) _

theorem starts_literalText (x : Binary64) : Starts x.literalText.toList := by
  have hsign {cs : List Char} (h : Starts cs) : Starts (x.signChars ++ cs) := by
    unfold Binary64.signChars
    split
    · exact ⟨'-', rfl, by decide⟩
    · exact h
  rw [Binary64.literalText, Binary64.textWith, String.toList_ofList]
  split
  · refine hsign ?_
    split
    · obtain ⟨c, r, hcr, hc⟩ := exists_digitChars (x.magnitude.1 / x.magnitude.2)
      rw [hcr]
      exact starts_cons_of_isDigit hc _
    · exact starts_positional _
  · split
    · exact ⟨'N', rfl, by decide⟩
    · exact hsign ⟨'i', rfl, by decide⟩

/-- A token of the lexer can stand behind every other, if it is no parameter without a name. -/
theorem Token.Lexical.solid {t : Token} (h : t.Lexical) {n : Nat}
    (hi : ∀ i, t = .param i → i.toNat < (mapParams n).names.length) :
    t.Solid (mapParams n).names := by
  cases t with
  | symbol s => trivial
  | ident s => exact h.1
  | param i =>
    have hlt := hi i rfl
    obtain ⟨c, r, hcr, -⟩ := exists_of_mem_names (List.getElem_mem hlt)
    refine ⟨'$', ?_, by decide⟩
    rw [target, List.getElem?_eq_getElem hlt, Option.getD_some, hcr]
    rfl
  | float x => exact starts_literalText x
  | str s => exact ⟨'"', by simp [target, Literal.render, Script.quote], by decide⟩
  | int k => exact (Munched.int h).starts
  | bool b => exact (Munched.bool b).starts
  | null => exact Munched.null.starts

/-! ### Hygiene -/

/-- A function stands well behind the head for `n` parameters. The parameters bind the names that
are due to them, without repetition. Every parameter in the function has a name at its position, as
which its token is written. So the text is the head, an arrow, and then the tokens of the function
with names for all parameters, of which none is left out. And neither the head nor the factory binds
a free name. -/
structure Expr.Hygienic (params : Params) (n : Nat) (f : Expr) : Prop where
  names : params.names = boundNames n
  nodup : (boundNames n).Nodup
  bound : ∀ s i, (param s i).Occurs f →
    ∃ name, (boundNames n)[i.toNat]? = some name ∧ (Token.param i).target (boundNames n) = name
  text : ∃ body, (functionLayout params f).render = headText n ++ " => " ++ body ∧
    Spaced (boundNames n) [] body.toList f.tokens
  tokens : f.tokens.filterMap Token.param? = f.paramRefs.map Prod.fst
  free : ∀ s x, (ident s x).Occurs f → x ∉ boundNames n ∧
    x ∉ ["runtime", "tables", "inputs", "entryPoints", "operators", "scanners",
      "invalidationLookupTable", "rescanLookupTable"]

/-- A parsed function is written as its tokens. -/
theorem ParsesTo.spaced_render {source : String} {f : Expr} (hf : ParsesTo source f) {n : Nat}
    (hrange : ∀ s i, (Expr.param s i).Occurs f → i.toNat < (mapParams n).names.length) :
    Spaced (mapParams n).names [] (f.render (mapParams n).names).toList f.tokens := by
  have hsolid : f.Leaves (Token.Solid (mapParams n).names) := by
    intro a ha t ht
    refine (hf.leaves a ha t ht).solid fun i hi => ?_
    subst hi
    cases a with
    | param s j =>
      obtain rfl := Token.param.inj (List.mem_singleton.1 ht)
      exact hrange s i ha
    | literal s v => cases v <;> cases List.mem_singleton.1 ht
    | ident | field => cases List.mem_singleton.1 ht
    | tuple | index | call | unary | binary => cases ht
  have hwritten := f.written_render (hsolid.of_mem_tokens fun _ => trivial)
  have hspaced := hwritten.fragment [] [] [] boundary_nil .nil
  rwa [List.append_nil, List.append_nil] at hspaced

/-- A parsed function whose parameters are in range and whose names the factory does not bind is
hygienic. -/
theorem ParsesTo.hygienic {source : String} {f : Expr} (hf : ParsesTo source f) {n : Nat}
    (hn : 1 ≤ n) (hrange : ∀ s i, (Expr.param s i).Occurs f → i.toNat < n)
    (hfree : f.Uncaptured) : f.Hygienic (mapParams n) n := by
  have hnames := names_mapParams hn
  have hlength := length_names_mapParams hn
  have hspaced := hf.spaced_render fun s i hi => hlength.symm ▸ hrange s i hi
  have hnodup := nodup_names_mapParams n
  rw [hnames] at hlength hspaced hnodup
  refine
    { names := hnames
      nodup := hnodup
      bound := fun s i hi => ?_
      text := ⟨f.render (boundNames n), ?_, hspaced⟩
      tokens := f.filterMap_param?_tokens
      free := fun s x hx => ⟨fun hmem => ?_, hfree s x hx⟩ }
  · have hname := List.getElem?_eq_getElem (hlength.symm ▸ hrange s i hi)
    exact ⟨_, hname, by rw [Token.target, hname]; rfl⟩
  · rw [(spells_function (mapParams n) f).render, functionText, lambdaHead_mapParams hn, hnames]
  · have hname : IsName x := hf.leaves _ hx _ (List.mem_singleton_self _)
    rw [← hnames] at hmem
    exact absurd hname.1 (by simp [isIdentifier_of_mem_names hmem])

/-! ### Loaded graphs -/

/-- The functions of an element. -/
def ElementKind.functions : ElementKind → List Expr
  | join b p _ => [b, p]
  | map f _ => [f]
  | _ => []

/-- The functions of a graph that a document describes were parsed. -/
theorem Document.Describes.parsesTo {d : Document} {g : Graph} (h : d.Describes g) {e : Element}
    (he : e ∈ g.elements) : ∀ f ∈ e.kind.functions, ∃ source, ParsesTo source f := by
  refine forall_mem_of_forall₂ (P := fun kind => ∀ f ∈ kind.functions, ∃ source, ParsesTo source f)
    (fun spec kind hspec => ?_) h.elements e.kind (List.mem_map_of_mem he)
  cases hspec with
  | table | input | scanner => exact List.forall_mem_nil _
  | join left hb hp => exact List.forall_mem_cons.2 ⟨⟨_, hb⟩, List.forall_mem_singleton.2 ⟨_, hp⟩⟩
  | map arity hf => exact List.forall_mem_singleton.2 ⟨_, hf⟩

namespace Graph

variable {g : Graph}

theorem wellDefined_of_allPass (h : g.validate.certificate.allPass = true) :
    ∀ e ∈ g.elements, e.WellDefined := by
  simp only [Certificate.allPass, Certificate.obligations, List.all_cons, Bool.and_eq_true] at h
  exact certificate_functions.1 h.2.2.2.1

/-- **Generated functions are hygienic.** In a loaded graph that passes all checks, a join is
written with both its keys behind the head for keys, and a map with its function behind the head for
its arity. There they are hygienic. -/
theorem hygienic_of_allPass {text : String} (hload : (load text).graph = some g)
    (hpass : g.validate.certificate.allPass = true) {e : Element} (he : e ∈ g.elements) :
    (∀ b p left, e.kind = .join b p left →
      (joinLayout b p left).render =
        "new runtime.HashEquiJoin(" ++ (functionLayout keyParams b).render ++ ", " ++
        (functionLayout keyParams p).render ++ ", " ++ Script.quote (sideText left) ++ ")" ∧
      b.Hygienic keyParams 1 ∧ p.Hygienic keyParams 1) ∧
    ∀ f n, e.kind = .map f n →
      (mapLayout f n).render =
        "new runtime.Map(" ++ (functionLayout (mapParams n) f).render ++ ")" ∧
      f.Hygienic (mapParams n) n := by
  obtain ⟨d, -, hd, -⟩ := exists_describes_of_load hload
  have hparsed := hd.parsesTo he
  obtain ⟨hjoin, hmap⟩ := wellDefined_of_allPass hpass e he
  constructor
  · intro b p left hk
    have hkey : ∀ key ∈ [b, p], key.Hygienic keyParams 1 := by
      intro key hkey
      obtain ⟨hrange, hfree⟩ := hjoin b p left hk key hkey
      obtain ⟨source, hf⟩ := hparsed key (by rw [hk]; exact hkey)
      -- the head for keys is that for maps of one parameter
      exact hf.hygienic (n := 1) (Nat.le_refl 1) (fun s i hi => by rw [hrange s i hi]; decide) hfree
    refine ⟨?_, hkey b (by simp), hkey p (by simp)⟩
    rw [(spells_function keyParams b).render, (spells_function keyParams p).render]
    exact (spells_operator (.join b p left)).render
  · intro f n hk
    obtain ⟨hn, hrange, hfree⟩ := hmap f n hk
    obtain ⟨source, hf⟩ := hparsed f (by rw [hk]; exact List.mem_singleton_self f)
    refine ⟨?_, hf.hygienic hn hrange hfree⟩
    rw [(spells_function (mapParams n) f).render]
    exact (spells_operator (.map f n)).render

theorem hygienic_of_allPass_nested :
    let d : Document :=
      { elements := [.input "a", .input "b", .join "$0[hash($0[1])]" "$0.key == x" true,
          .map "[t($1), -$0]" 2]
        edges := [⟨.name "a", .index 2, .left⟩, ⟨.name "b", .index 2, .right⟩,
          ⟨.index 2, .index 3, .input⟩]
        strata := [⟨0, [.index 0, .index 1]⟩, ⟨1, [.index 2, .index 3]⟩] }
    ∃ g, (load d.encode).graph = some g ∧ g.validate.certificate.allPass = true ∧
      (∃ e ∈ g.elements, ∃ b p left, e.kind = .join b p left ∧
        b.Hygienic keyParams 1 ∧ p.Hygienic keyParams 1) ∧
      ∃ e ∈ g.elements, ∃ f n, e.kind = .map f n ∧ f.Hygienic (mapParams n) n := by
  intro d
  have hchecked :
      d.load.graph.map (fun g => (g.validate.certificate.allPass, g.elements.map Element.variant)) =
      some (true, [.input, .input, .join, .map]) := by decide +kernel
  obtain ⟨g, hg, hpair⟩ := Option.map_eq_some_iff.1 hchecked
  obtain ⟨hpass, hvariants⟩ := Prod.mk.inj hpair
  have hload : (load d.encode).graph = some g := by rw [load_encode, hg]
  have hexists : ∀ v ∈ [Variant.join, .map], ∃ e ∈ g.elements, e.kind.variant = v :=
    fun v hv => List.mem_map.1 (hvariants ▸ List.mem_cons_of_mem _ (List.mem_cons_of_mem _ hv))
  obtain ⟨j, hj, hjoin⟩ := hexists .join (by simp)
  obtain ⟨m, hm, hmap⟩ := hexists .map (by simp)
  refine ⟨g, hload, hpass, ⟨j, hj, ?_⟩, m, hm, ?_⟩
  · cases hk : j.kind with
    | join b p left =>
      exact ⟨b, p, left, rfl, ((hygienic_of_allPass hload hpass hj).1 b p left hk).2⟩
    | table | input | map | scanner => simp [hk, ElementKind.variant] at hjoin
  · cases hk : m.kind with
    | map f n => exact ⟨f, n, rfl, ((hygienic_of_allPass hload hpass hm).2 f n hk).2⟩
    | table | input | join | scanner => simp [hk, ElementKind.variant] at hmap

end Graph

end Dataflow
