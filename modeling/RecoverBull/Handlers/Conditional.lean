import RecoverBull.Handlers.Attempts
import RecoverBull.Lib.Splitting
import Mathlib.Data.List.TakeWhile

/-!
# Conditional requests

The field values of `If-None-Match` as its grammar has them, what weak comparison
asks of the answer, and when the matcher of `get_attempts` agrees. It cuts the
field value at every comma, those inside an opaque-tag included.
-/

namespace RecoverBull

/-! ## The grammar -/

/-- A character of an opaque-tag, in visible ASCII. -/
def isEtagc (c : Char) : Bool := c == '!' || (decide ('#' ≤ c) && decide (c ≤ '~'))

structure EntityTag where
  weak : Bool
  opaqueTag : List Char
  etagc : opaqueTag.all isEtagc = true

/-- Optional white space. -/
structure Ows where
  chars : List Char
  blank : ∀ c ∈ chars, c = ' ' ∨ c = '\t'

/-- An element of the list with the space around it; a recipient accepts empty ones. -/
structure ListElement where
  before : Ows
  tag : Option EntityTag
  after : Ows

inductive IfNoneMatch
  | any (before after : Ows)
  | list (elements : List ListElement)

def EntityTag.render (tag : EntityTag) : List Char :=
  (if tag.weak then ['W', '/'] else []) ++ '"' :: (tag.opaqueTag ++ ['"'])

def ListElement.render (element : ListElement) : List Char :=
  element.before.chars ++ (element.tag.elim [] EntityTag.render ++ element.after.chars)

namespace IfNoneMatch

/-- The field value. -/
def render : IfNoneMatch → String
  | any before after => String.ofList (before.chars ++ '*' :: after.chars)
  | list elements => String.ofList ([','].intercalate (elements.map ListElement.render))

/-- Weak comparison: a listed entity-tag has the opaque-tag of the current one. -/
def Matches (value : IfNoneMatch) (opaqueTag : String) : Prop :=
  match value with
  | any _ _ => True
  | list elements => ∃ element ∈ elements, ∃ tag, element.tag = some tag ∧
      tag.opaqueTag = opaqueTag.toList

/-- The response weak comparison asks for. -/
def Answered (value : IfNoneMatch) (snapshot : AttemptsSnapshotCache) (opaqueTag : String)
    (response : Response) : Prop :=
  (response.status = .notModified ↔ value.Matches opaqueTag) ∧
    (¬value.Matches opaqueTag → response.status = .ok ∧ response.body = .gzip snapshot.gzipBody)

end IfNoneMatch

/-- The opaque-tag has a lone `*`, or `W/*`, between two of its commas. -/
def EntityTag.StarInside (tag : EntityTag) : Prop :=
  [',', '*', ','] <:+: tag.opaqueTag ∨ [',', 'W', '/', '*', ','] <:+: tag.opaqueTag

/-- A listed entity-tag has. -/
def IfNoneMatch.StarInside : IfNoneMatch → Prop
  | any _ _ => False
  | list elements => ∃ element ∈ elements, ∃ tag, element.tag = some tag ∧ tag.StarInside

/-! ## Trimming and the weak prefix -/

def Blank (cs : List Char) : Prop := ∀ c ∈ cs, c.isWhitespace = true

theorem Ows.isWhitespace (space : Ows) : Blank space.chars := by
  intro c hc
  obtain rfl | rfl := space.blank c hc <;> rfl

theorem trim_spec (cs : List Char) : ∃ u v, Blank u ∧ Blank v ∧ cs = u ++ (trim cs ++ v) := by
  refine ⟨cs.takeWhile Char.isWhitespace,
    ((cs.dropWhile Char.isWhitespace).reverse.takeWhile Char.isWhitespace).reverse, ?_, ?_, ?_⟩
  · exact fun c hc => List.mem_takeWhile_imp hc
  · exact fun c hc => List.mem_takeWhile_imp (List.mem_reverse.mp hc)
  · rw [trim, ← List.reverse_append, List.takeWhile_append_dropWhile, List.reverse_reverse,
      List.takeWhile_append_dropWhile]

/-- What begins and ends with something else is all that trimming leaves. -/
theorem trim_append {u core v : List Char} (hu : Blank u) (hv : Blank v) {first last : Char}
    (hfirst : core.head? = some first) (hlast : core.getLast? = some last)
    (hne : first.isWhitespace = false ∧ last.isWhitespace = false) :
    trim (u ++ (core ++ v)) = core := by
  have hkeep : ∀ {cs : List Char} {c : Char}, cs.head? = some c → c.isWhitespace = false →
      cs.dropWhile Char.isWhitespace = cs := by
    intro cs c hc hw
    obtain ⟨cs', rfl⟩ := List.head?_eq_some_iff.mp hc
    exact List.dropWhile_cons_of_neg (by simp [hw])
  have hleft : (core ++ v).head? = some first := by simp [hfirst]
  have hright : core.reverse.head? = some last := by simp [hlast]
  rw [trim, List.dropWhile_append_of_pos hu, hkeep hleft hne.1, List.reverse_append,
    List.dropWhile_append_of_pos fun c hc => hv c (List.mem_reverse.mp hc),
    hkeep hright hne.2, List.reverse_reverse]

theorem stripWeakPrefix_eq {cs target : List Char} (h : stripWeakPrefix cs = target) :
    ∃ w, (w = [] ∨ w = ['W', '/']) ∧ cs = w ++ target := by
  unfold stripWeakPrefix at h
  split at h
  · exact ⟨['W', '/'], Or.inr rfl, by rw [← h]; rfl⟩
  · exact ⟨[], Or.inl rfl, h⟩

/-! ## Pieces that match -/

/-- The matcher takes this piece of the field value for the ETag. -/
def Hits (etag piece : List Char) : Prop :=
  stripWeakPrefix (trim piece) = ['*'] ∨ stripWeakPrefix (trim piece) = etag

theorem notModified_iff {value etag : String} :
    notModified (some value) etag = true ↔
      ∃ piece ∈ value.toList.splitOn ',', Hits etag.toList piece := by
  simp [notModified, Hits]

/-- The piece is the target, weak or not, with space around it. -/
def Spells (target piece : List Char) : Prop :=
  ∃ u w v, Blank u ∧ Blank v ∧ (w = [] ∨ w = ['W', '/']) ∧ piece = u ++ (w ++ target ++ v)

theorem spells_iff {target piece : List Char} {last : Char} (hlast : target.getLast? = some last)
    (hblank : last.isWhitespace = false)
    (hhead : target.head? = some '*' ∨ target.head? = some '"') :
    stripWeakPrefix (trim piece) = target ↔ Spells target piece := by
  constructor
  · intro h
    obtain ⟨u, v, hu, hv, hpiece⟩ := trim_spec piece
    obtain ⟨w, hw, htrim⟩ := stripWeakPrefix_eq h
    exact ⟨u, w, v, hu, hv, hw, htrim ▸ hpiece⟩
  · rintro ⟨u, w, v, hu, hv, hw, rfl⟩
    obtain ⟨rest, hrest⟩ : ∃ rest, target = '*' :: rest ∨ target = '"' :: rest := by
      obtain h | h := hhead
      · obtain ⟨rest, h⟩ := List.head?_eq_some_iff.mp h
        exact ⟨rest, Or.inl h⟩
      · obtain ⟨rest, h⟩ := List.head?_eq_some_iff.mp h
        exact ⟨rest, Or.inr h⟩
    have hlast' : (w ++ target).getLast? = some last := by simp [hlast]
    have htrim : trim (u ++ (w ++ target ++ v)) = w ++ target := by
      obtain rfl | rfl := hw
      · obtain rfl | rfl := hrest
        · exact trim_append hu hv rfl hlast' ⟨rfl, hblank⟩
        · exact trim_append hu hv rfl hlast' ⟨rfl, hblank⟩
      · exact trim_append hu hv rfl hlast' ⟨rfl, hblank⟩
    rw [htrim]
    obtain rfl | rfl := hw <;> obtain rfl | rfl := hrest <;> rfl

/-- An ETag of the server as characters. -/
def quoted (opaqueTag : List Char) : List Char := '"' :: (opaqueTag ++ ['"'])

theorem hits_iff {opaqueTag piece : List Char} :
    Hits (quoted opaqueTag) piece ↔ Spells ['*'] piece ∨ Spells (quoted opaqueTag) piece := by
  have hlast : (quoted opaqueTag).getLast? = some '"' := by
    rw [quoted, ← List.cons_append, List.getLast?_concat]
  exact or_congr (spells_iff rfl rfl (Or.inl rfl)) (spells_iff hlast rfl (Or.inr rfl))

/-! ## Pieces of one element -/

theorem Blank.notMem {cs : List Char} (h : Blank cs) {c : Char} (hc : c.isWhitespace = false) :
    c ∉ cs := by
  intro hm
  rw [h c hm] at hc
  cases hc

theorem weakPrefix_notMem {w : List Char} (h : w = [] ∨ w = ['W', '/']) :
    '"' ∉ w ∧ ',' ∉ w := by
  obtain rfl | rfl := h <;> decide

theorem isEtagc_not_blank {c : Char} (h : isEtagc c = true) : c.isWhitespace = false := by
  by_contra hc
  rw [Bool.not_eq_false, Char.isWhitespace] at hc
  simp only [Bool.or_eq_true, decide_eq_true_eq, or_assoc] at hc
  obtain rfl | rfl | rfl | rfl := hc <;> cases h

theorem isEtagc_ne_quote {c : Char} (h : isEtagc c = true) : c ≠ '"' := by
  rintro rfl
  cases h

section element

variable {x o y : List Char}

/-- What lies around the quotes of an element: the weak prefix and spaces. -/
def Margin (cs : List Char) : Prop := '"' ∉ cs ∧ ',' ∉ cs

/-- A lone star is a piece of an element when it stands between two commas of
the opaque-tag. -/
theorem exists_star_iff (hx : Margin x) (hy : Margin y) (ho : ∀ c ∈ o, isEtagc c = true) :
    (∃ piece ∈ (x ++ '"' :: (o ++ '"' :: y)).splitOn ',', Spells ['*'] piece) ↔
      [',', '*', ','] <:+: o ∨ [',', 'W', '/', '*', ','] <:+: o := by
  have hwhole : ',' :: (x ++ '"' :: (o ++ '"' :: y) ++ [',']) =
      (',' :: x) ++ '"' :: (o ++ '"' :: (y ++ [','])) := by simp
  constructor
  · rintro ⟨piece, hmem, u, w, v, hu, hv, hw, rfl⟩
    obtain ⟨-, hinfix⟩ := Splitting.mem_splitOn.mp hmem
    have hquote : '"' ∉ ',' :: (u ++ (w ++ ['*'] ++ v) ++ [',']) := by
      have := hu.notMem (c := '"') rfl
      have := hv.notMem (c := '"') rfl
      have := (weakPrefix_notMem hw).1
      simp_all
    rw [hwhole, Splitting.infix_append_cons_of_notMem hquote,
      Splitting.infix_append_cons_of_notMem hquote] at hinfix
    -- The piece has a comma on either side, and only the opaque-tag has two.
    have hcount : ∀ cs : List Char, ',' :: (u ++ (w ++ ['*'] ++ v) ++ [',']) <:+: cs →
        2 ≤ cs.count ',' := by
      intro cs h
      refine le_trans ?_ (h.sublist.count_le ',')
      simp only [List.count_cons_self, List.count_append, List.count_nil]
      omega
    have hin : ',' :: (u ++ (w ++ ['*'] ++ v) ++ [',']) <:+: o := by
      obtain h | h | h := hinfix
      · have := hcount _ h
        rw [List.count_cons_self, List.count_eq_zero.mpr hx.2] at this
        omega
      · exact h
      · have := hcount _ h
        rw [List.count_append, List.count_eq_zero.mpr hy.2] at this
        simp at this
    have hnil : ∀ cs : List Char, Blank cs → (∀ c ∈ cs, c ∈ o) → cs = [] := by
      intro cs hb hsub
      refine List.eq_nil_iff_forall_not_mem.mpr fun c hc => ?_
      have := isEtagc_not_blank (ho c (hsub c hc))
      rw [hb c hc] at this
      cases this
    obtain rfl := hnil u hu fun c hc => hin.subset (by simp [hc])
    obtain rfl := hnil v hv fun c hc => hin.subset (by simp [hc])
    obtain rfl | rfl := hw
    · exact Or.inl (by simpa using hin)
    · exact Or.inr (by simpa using hin)
  · have hinto : ∀ piece : List Char, ',' ∉ piece → ',' :: (piece ++ [',']) <:+: o →
        piece ∈ (x ++ '"' :: (o ++ '"' :: y)).splitOn ',' := by
      intro piece hpiece hin
      refine Splitting.mem_splitOn.mpr ⟨hpiece, hin.trans ?_⟩
      rw [hwhole]
      exact ⟨(',' :: x) ++ ['"'], '"' :: (y ++ [',']), by simp⟩
    have hblank : Blank [] := fun c hc => absurd hc List.not_mem_nil
    rintro (h | h)
    · exact ⟨['*'], hinto ['*'] (by decide) h, [], [], [], hblank, hblank, Or.inl rfl, rfl⟩
    · exact ⟨['W', '/', '*'], hinto _ (by decide) h, [], ['W', '/'], [], hblank, hblank,
        Or.inr rfl, rfl⟩

/-- The ETag is a piece of an element exactly when it has its opaque-tag. -/
theorem exists_quoted_iff {u w v opaqueTag : List Char} (hu : Blank u)
    (hw : w = [] ∨ w = ['W', '/']) (hv : Blank v) (ho : ∀ c ∈ o, isEtagc c = true)
    (hplain : '"' ∉ opaqueTag ∧ ',' ∉ opaqueTag) :
    (∃ piece ∈ (u ++ (w ++ quoted o ++ v)).splitOn ',', Spells (quoted opaqueTag) piece) ↔
      o = opaqueTag := by
  have hquote : '"' ∉ o := fun h => isEtagc_ne_quote (ho _ h) rfl
  constructor
  · rintro ⟨piece, hmem, u', w', v', hu', hv', hw', rfl⟩
    obtain ⟨-, a, b, h⟩ := Splitting.mem_splitOn.mp hmem
    have hzero : ∀ {cs : List Char}, Blank cs → cs.count '"' = 0 := fun hb =>
      List.count_eq_zero.mpr (hb.notMem rfl)
    have hzero' : ∀ {w : List Char}, w = [] ∨ w = ['W', '/'] → w.count '"' = 0 := fun hw =>
      List.count_eq_zero.mpr (weakPrefix_notMem hw).1
    -- Both quotes of the element are those of the piece.
    have hcount := congrArg (List.count '"') h
    simp only [quoted, List.count_append, List.count_cons, List.count_nil, hzero hu, hzero hv,
      hzero hu', hzero hv', hzero' hw, hzero' hw', List.count_eq_zero.mpr hquote,
      List.count_eq_zero.mpr hplain.1] at hcount
    have ha : '"' ∉ a := List.count_eq_zero.mp (by simp at hcount; omega)
    have h' : (a ++ ',' :: (u' ++ w')) ++ '"' :: (opaqueTag ++ '"' :: (v' ++ ',' :: b)) =
        (',' :: (u ++ w)) ++ '"' :: (o ++ '"' :: (v ++ [','])) := by
      simpa [quoted] using h
    have hleft : '"' ∉ a ++ ',' :: (u' ++ w') := by
      simp [ha, hu'.notMem (c := '"') rfl, (weakPrefix_notMem hw').1]
    have hright : '"' ∉ ',' :: (u ++ w) := by
      simp [hu.notMem (c := '"') rfl, (weakPrefix_notMem hw).1]
    obtain ⟨-, h'⟩ := Splitting.append_cons_inj_of_notMem_left hleft hright h'
    exact (Splitting.append_cons_inj_of_notMem_left hplain.1 hquote h').1.symm
  · rintro rfl
    refine ⟨_, ?_, u, w, v, hu, hv, hw, rfl⟩
    rw [List.splitOn_eq_singleton, List.mem_singleton]
    simp [quoted, hu.notMem (c := ',') rfl, hv.notMem (c := ',') rfl, (weakPrefix_notMem hw).2,
      hplain.2]

end element

theorem Spells.mem {target piece : List Char} (h : Spells target piece) {c : Char}
    (hc : c ∈ target) : c ∈ piece := by
  obtain ⟨u, w, v, -, -, -, rfl⟩ := h
  simp [hc]

/-- Nothing is found between blanks. -/
theorem Blank.not_hits {opaqueTag piece : List Char} (h : Blank piece) :
    ¬Hits (quoted opaqueTag) piece := by
  rw [hits_iff]
  rintro (hs | hs)
  · exact h.notMem rfl (hs.mem List.mem_cons_self)
  · exact h.notMem rfl (hs.mem (List.mem_cons_self : '"' ∈ quoted opaqueTag))

theorem ListElement.exists_hit_iff (element : ListElement) {opaqueTag : List Char}
    (hplain : '"' ∉ opaqueTag ∧ ',' ∉ opaqueTag) :
    (∃ piece ∈ element.render.splitOn ',', Hits (quoted opaqueTag) piece) ↔
      ∃ tag, element.tag = some tag ∧ (tag.opaqueTag = opaqueTag ∨ tag.StarInside) := by
  obtain ⟨before, tag, after⟩ := element
  have hu := before.isWhitespace
  have hv := after.isWhitespace
  cases tag with
  | none =>
    have hblank : Blank (before.chars ++ after.chars) := fun c hc =>
      (List.mem_append.mp hc).elim (hu c) (hv c)
    refine iff_of_false ?_ ?_
    · rintro ⟨piece, hmem, hhit⟩
      change piece ∈ (before.chars ++ after.chars).splitOn ',' at hmem
      rw [List.splitOn_eq_singleton (hblank.notMem rfl), List.mem_singleton] at hmem
      exact hblank.not_hits (hmem ▸ hhit)
    · rintro ⟨tag, htag, -⟩
      cases htag
  | some tag =>
    obtain ⟨w, hw, hrender⟩ : ∃ w, (w = [] ∨ w = ['W', '/']) ∧
        tag.render = w ++ quoted tag.opaqueTag := by
      refine ⟨if tag.weak then ['W', '/'] else [], ?_, rfl⟩
      cases tag.weak
      · exact Or.inl rfl
      · exact Or.inr rfl
    have htext : ListElement.render ⟨before, some tag, after⟩ =
        before.chars ++ (w ++ quoted tag.opaqueTag ++ after.chars) := by
      rw [← hrender]
      rfl
    -- A quoted tag may hold commas: the splitting on commas then cuts inside it.
    have hstar := exists_star_iff (x := before.chars ++ w) (y := after.chars)
      ⟨by simp [hu.notMem (c := '"') rfl, (weakPrefix_notMem hw).1],
        by simp [hu.notMem (c := ',') rfl, (weakPrefix_notMem hw).2]⟩
      ⟨hv.notMem rfl, hv.notMem rfl⟩ (List.all_eq_true.mp tag.etagc)
    have hsame : before.chars ++ (w ++ quoted tag.opaqueTag ++ after.chars) =
        before.chars ++ w ++ '"' :: (tag.opaqueTag ++ '"' :: after.chars) := by
      simp [quoted]
    rw [← hsame] at hstar
    simp only [htext, hits_iff, and_or_left, exists_or, hstar,
      exists_quoted_iff hu hw hv (List.all_eq_true.mp tag.etagc) hplain, Option.some.injEq, exists_eq_left']
    exact or_comm

/-- The matcher finds the current opaque-tag, a lone `*`, or a `*` inside a tag. -/
theorem IfNoneMatch.exists_hit_iff (value : IfNoneMatch) {opaqueTag : String}
    (hplain : '"' ∉ opaqueTag.toList ∧ ',' ∉ opaqueTag.toList) :
    (∃ piece ∈ value.render.toList.splitOn ',', Hits (quoted opaqueTag.toList) piece) ↔
      value.Matches opaqueTag ∨ value.StarInside := by
  cases value with
  | any before after =>
    have hu := before.isWhitespace
    have hv := after.isWhitespace
    refine iff_of_true ⟨before.chars ++ '*' :: after.chars, ?_, ?_⟩ (Or.inl trivial)
    · rw [render, String.toList_ofList, List.splitOn_eq_singleton, List.mem_singleton]
      simp [hu.notMem (c := ',') rfl, hv.notMem (c := ',') rfl]
    · exact hits_iff.mpr (Or.inl ⟨before.chars, [], after.chars, hu, hv, Or.inl rfl, rfl⟩)
  | list elements =>
    rw [render, String.toList_ofList]
    by_cases hne : elements = []
    · subst hne
      refine iff_of_false ?_ (by simp [Matches, StarInside])
      rintro ⟨piece, hmem, hhit⟩
      obtain rfl : piece = [] := by simpa using hmem
      exact Blank.not_hits (fun c hc => absurd hc List.not_mem_nil) hhit
    · rw [Splitting.splitOn_intercalate_eq_flatMap (by simpa using hne)]
      have hsplit : (∃ piece ∈ (elements.map ListElement.render).flatMap (List.splitOn ','),
          Hits (quoted opaqueTag.toList) piece) ↔ ∃ element ∈ elements,
            ∃ piece ∈ element.render.splitOn ',', Hits (quoted opaqueTag.toList) piece := by
        simp only [List.mem_flatMap, List.mem_map]
        constructor
        · rintro ⟨piece, ⟨_, ⟨element, hmem, rfl⟩, hp⟩, hhit⟩
          exact ⟨element, hmem, piece, hp, hhit⟩
        · rintro ⟨element, hmem, piece, hp, hhit⟩
          exact ⟨piece, ⟨_, ⟨element, hmem, rfl⟩, hp⟩, hhit⟩
      simp only [hsplit, ListElement.exists_hit_iff _ hplain, Matches, StarInside,
        and_or_left, exists_or]

/-! ## The answer -/

/-- The hex digest inside an ETag of the server. -/
theorem notMem_of_isHexHash {digest : String} (h : is256bitsHexHash digest = true) :
    '"' ∉ digest.toList ∧ ',' ∉ digest.toList := by
  have hhex : ∀ c ∈ digest.toList, isAsciiHexdigit c = true := by
    simp only [is256bitsHexHash, isHex, Bool.and_eq_true, List.all_eq_true] at h
    exact h.2
  constructor <;> intro hm <;> cases hhex _ hm

/-- **A conditional request is answered by weak comparison exactly when the current
opaque-tag is listed or no listed one has a star between two of its commas.** -/
theorem conditional_iff (cfg : Config) (value : IfNoneMatch) (snapshot : AttemptsSnapshotCache)
    (digest : String) (hhex : is256bitsHexHash digest = true)
    (hetag : snapshot.etag = "\"" ++ digest ++ "\"") (now : ℕ) :
    value.Answered snapshot digest (attemptsResponse cfg snapshot (some value.render) now) ↔
      value.Matches digest ∨ ¬value.StarInside := by
  have hchars : snapshot.etag.toList = quoted digest.toList := by
    rw [hetag, String.toList_append, String.toList_append]
    rfl
  have hmatched : notModified (some value.render) snapshot.etag = true ↔
      value.Matches digest ∨ value.StarInside := by
    rw [notModified_iff, hchars]
    exact value.exists_hit_iff (notMem_of_isHexHash hhex)
  unfold IfNoneMatch.Answered attemptsResponse
  cases hn : notModified (some value.render) snapshot.etag with
  | true =>
    have hfound := hmatched.mp hn
    simp only [Bool.not_true, Bool.false_eq_true, if_false, true_iff]
    constructor
    · exact fun h => Or.inl h.1
    · intro h
      have hlisted : value.Matches digest := h.elim id fun hstar => hfound.resolve_right hstar
      exact ⟨hlisted, fun hnot => absurd hlisted hnot⟩
  | false =>
    have hmissing : ¬(value.Matches digest ∨ value.StarInside) := by
      rw [← hmatched, hn]
      exact Bool.false_ne_true
    rw [not_or] at hmissing
    exact iff_of_true ⟨iff_of_false StatusCode.noConfusion hmissing.1, fun _ => ⟨rfl, rfl⟩⟩
      (Or.inr hmissing.2)

/-- A snapshot whose ETag is made of zeros. -/
def sampleSnapshot : AttemptsSnapshotCache where
  gzipBody := [31, 139]
  etag := "\"" ++ "0000000000000000000000000000000000000000000000000000000000000000" ++ "\""
  createdAt := 0

/-- A list of one strong tag without space around it. -/
def IfNoneMatch.single (opaqueTag : List Char) (h : opaqueTag.all isEtagc = true) : IfNoneMatch :=
  .list [⟨⟨[], by simp⟩, some ⟨false, opaqueTag, h⟩, ⟨[], by simp⟩⟩]

/-- A tag with a comma inside, and no star, gets the full body. -/
theorem conditional_iff_sample :
    (IfNoneMatch.single ['a', ',', 'b'] (by decide)).Answered sampleSnapshot
      "0000000000000000000000000000000000000000000000000000000000000000"
      (attemptsResponse .sample sampleSnapshot
        (some (IfNoneMatch.single ['a', ',', 'b'] (by decide)).render) 0) := by
  refine (conditional_iff .sample _ sampleSnapshot _ (by decide +kernel) rfl 0).mpr (Or.inr ?_)
  rintro ⟨element, hmem, tag, htag, hstar⟩
  obtain rfl := List.mem_singleton.mp hmem
  cases htag
  revert hstar
  change ¬([',', '*', ','] <:+: ['a', ',', 'b'] ∨ [',', 'W', '/', '*', ','] <:+: ['a', ',', 'b'])
  decide

/-- A star inside a tag the client holds is taken for a lone one: a 304 for a body
it does not hold. -/
theorem star_inside_not_modified :
    ¬(IfNoneMatch.single ['a', ',', '*', ',', 'b'] (by decide)).Answered sampleSnapshot
      "0000000000000000000000000000000000000000000000000000000000000000"
      (attemptsResponse .sample sampleSnapshot
        (some (IfNoneMatch.single ['a', ',', '*', ',', 'b'] (by decide)).render) 0) := by
  rintro ⟨hstatus, -⟩
  have h304 : (attemptsResponse .sample sampleSnapshot
      (some (IfNoneMatch.single ['a', ',', '*', ',', 'b'] (by decide)).render) 0).status =
      .notModified := by decide +kernel
  obtain ⟨element, hmem, tag, htag, hsame⟩ := hstatus.mp h304
  obtain rfl := List.mem_singleton.mp hmem
  cases htag
  exact absurd hsame (by decide +kernel)

end RecoverBull
