import AutoTargeting.Library.JsonFields

namespace Json

/-- What follows the first occurrence of `needle`. -/
def findAfter (needle : Bytes) : Bytes → Option Bytes
  | [] => if needle = [] then some [] else none
  | b :: s =>
    if needle.isPrefixOf (b :: s) then some ((b :: s).drop needle.length)
    else findAfter needle s

/-- A key with its quotes and its colon, and what is to follow. -/
def keyNeedle (key next : Bytes) : Bytes := quote :: (key ++ quote :: colon :: next)

/-- The bytes that a writer leaves as they are. -/
def Unescaped (b : UInt8) : Prop := b ≠ quote ∧ b ≠ backslash ∧ ¬ b < 32

instance : DecidablePred Unescaped := fun _ => inferInstanceAs (Decidable (_ ∧ _ ∧ _))

/-- A key that is written as it is, without anything that ends a token. -/
def IsKey (key : Bytes) : Prop :=
  key ≠ [] ∧ ∀ b ∈ key, Unescaped b ∧ isDelimiter b = false

instance : DecidablePred IsKey := fun _ => inferInstanceAs (Decidable (_ ∧ _))

/-- What may stand behind a value in an object. -/
def Follows (t : Bytes) : Prop := ∃ c s, t = c :: s ∧ isDelimiter c = true ∧ c ≠ colon

theorem forall_byte {P : UInt8 → Prop} (h : ∀ n < 256, P (UInt8.ofNat n)) (b : UInt8) : P b := by
  have hb := h b.toNat b.toNat_lt
  rwa [UInt8.ofNat_toNat] at hb

theorem escapeByte_eq_self_iff : ∀ b : UInt8, escapeByte b = [b] ↔ Unescaped b := by
  apply forall_byte
  decide +kernel

theorem escape_of_unescaped {s : Bytes} (h : ∀ b ∈ s, Unescaped b) : escape escapeByte s = s := by
  induction s with
  | nil => rfl
  | cons b s ih =>
    have hb := (escapeByte_eq_self_iff b).mpr (h b (by simp))
    have hs := ih fun c hc => h c (by simp [hc])
    rw [escape, List.flatMap_cons, hb]
    exact congrArg (b :: ·) hs

variable {key next s t u mid : Bytes} {b : UInt8}

theorem findAfter_cons (h : ¬ keyNeedle key next <+: b :: s) :
    findAfter (keyNeedle key next) (b :: s) = findAfter (keyNeedle key next) s := by
  have hnot : (keyNeedle key next).isPrefixOf (b :: s) = false := by
    rw [← Bool.not_eq_true, List.isPrefixOf_iff_prefix]
    exact h
  rw [findAfter, hnot]
  rfl

/-- No match starts before the next quote. -/
theorem findAfter_skip (h : quote ∉ mid) (s : Bytes) :
    findAfter (keyNeedle key next) (mid ++ s) = findAfter (keyNeedle key next) s := by
  induction mid with
  | nil => rfl
  | cons b mid ih =>
    have hb : quote ≠ b := fun hb => h (by simp [hb])
    have hmid : quote ∉ mid := fun hm => h (by simp [hm])
    rw [List.cons_append, findAfter_cons, ih hmid]
    simp [keyNeedle, List.cons_prefix_cons, hb]

theorem findAfter_hit (s : Bytes) :
    findAfter (keyNeedle key next) (keyNeedle key next ++ s) = some s := by
  have hprefix : (keyNeedle key next).isPrefixOf (keyNeedle key next ++ s) = true :=
    List.isPrefixOf_iff_prefix.mpr (List.prefix_append _ _)
  have hdrop : (keyNeedle key next ++ s).drop (keyNeedle key next).length = s := List.drop_left
  cases hn : keyNeedle key next ++ s with
  | nil => simp [keyNeedle] at hn
  | cons b t =>
    rw [hn] at hprefix hdrop
    rw [findAfter, if_pos hprefix, hdrop]

/-- A key does not start with what ends a token. -/
theorem findAfter_closing (hkey : IsKey key) (hb : isDelimiter b = true) :
    findAfter (keyNeedle key next) (quote :: b :: s) =
      findAfter (keyNeedle key next) (b :: s) := by
  apply findAfter_cons
  obtain ⟨hne, hall⟩ := hkey
  cases key with
  | nil => simp at hne
  | cons c key =>
    have hc : isDelimiter c = false := (hall c (by simp)).2
    have hcb : c ≠ b := by
      rintro rfl
      simp [hb] at hc
    simp [keyNeedle, List.cons_prefix_cons, hcb]

/-- Two texts without quotes, each with a quote behind it. -/
theorem append_quote_inj {a : Bytes} (ha : quote ∉ a) (hmid : quote ∉ mid)
    (h : a ++ quote :: s = mid ++ quote :: t) : a = mid ∧ s = t := by
  induction a generalizing mid with
  | nil =>
    cases mid with
    | nil => simpa using h
    | cons c mid =>
      simp only [List.nil_append, List.cons_append, List.cons.injEq] at h
      simp [h.1] at hmid
  | cons c a ih =>
    cases mid with
    | nil =>
      simp only [List.nil_append, List.cons_append, List.cons.injEq] at h
      simp [h.1] at ha
    | cons d mid =>
      simp only [List.cons_append, List.cons.injEq] at h
      obtain ⟨rfl, hrest⟩ := h
      obtain ⟨rfl, hst⟩ := ih (fun hm => ha (by simp [hm])) (fun hm => hmid (by simp [hm])) hrest
      exact ⟨rfl, hst⟩

/-- A key that is found at a place in a written string ends with the string. -/
theorem escape_append_quote_inj (hkey : ∀ b ∈ key, Unescaped b)
    (h : key ++ quote :: t = escape escapeByte s ++ quote :: u) : t = u := by
  induction s generalizing key with
  | nil =>
    cases key with
    | nil => simpa [escape] using h
    | cons c key =>
      have hc := (hkey c (by simp)).1
      simp only [escape, List.flatMap_nil, List.nil_append, List.cons_append,
        List.cons.injEq] at h
      exact absurd h.1 hc
  | cons b s ih =>
    rw [escape, List.flatMap_cons, List.append_assoc] at h
    change key ++ quote :: t = escapeByte b ++ (escape escapeByte s ++ quote :: u) at h
    have hslash : ∀ r, key ++ quote :: t ≠ backslash :: r := by
      intro r hr
      cases key with
      | nil => exact absurd (List.cons.inj hr).1 (by decide)
      | cons c key => exact (hkey c (by simp)).2.1 (List.cons.inj hr).1
    rcases escapeByte_cases b with ⟨d, hb, -⟩ | ⟨-, hb⟩ | ⟨hq, -, -, hb⟩
    · rw [hb] at h
      exact absurd h (hslash _)
    · rw [hb] at h
      exact absurd h (hslash _)
    · rw [hb] at h
      cases key with
      | nil => exact absurd (List.cons.inj h).1.symm hq
      | cons c key => exact ih (fun c hc => hkey c (by simp [hc])) (List.cons.inj h).2

/-- No match starts in a written string, nor at its closing quote. -/
theorem findAfter_escape (hkey : IsKey key) (ht : Follows t) (s : Bytes) :
    findAfter (keyNeedle key next) (escape escapeByte s ++ quote :: t) =
      findAfter (keyNeedle key next) t := by
  obtain ⟨c, t, rfl, hc, hcolon⟩ := ht
  induction s with
  | nil => exact findAfter_closing hkey hc
  | cons b s ih =>
    rw [escape, List.flatMap_cons, List.append_assoc]
    change findAfter _ (escapeByte b ++ (escape escapeByte s ++ quote :: c :: t)) = _
    rcases escapeByte_cases b with ⟨d, hb, -⟩ | ⟨hlt, hb⟩ | ⟨hq, -, -, hb⟩
    · have hslash : ¬ keyNeedle key next <+: backslash :: d :: (escape escapeByte s ++
          quote :: c :: t) := by
        simp [keyNeedle, List.cons_prefix_cons, quote, backslash]
      have hd : ¬ keyNeedle key next <+: d :: (escape escapeByte s ++ quote :: c :: t) := by
        rintro ⟨r, hr⟩
        have htext : key ++ quote :: (colon :: (next ++ r)) =
            escape escapeByte s ++ quote :: (c :: t) := by
          simpa [keyNeedle] using (List.cons.inj hr).2
        have hrest := escape_append_quote_inj (fun b hb => (hkey.2 b hb).1) htext
        exact hcolon (List.cons.inj hrest).1.symm
      rw [hb]
      change findAfter _ (backslash :: d :: (escape escapeByte s ++ quote :: c :: t)) = _
      rw [findAfter_cons hslash, findAfter_cons hd, ih]
    · have hdigits : ∀ n < 32, hexDigit (n / 16) ≠ quote ∧ hexDigit (n % 16) ≠ quote := by decide
      obtain ⟨h1, h2⟩ := hdigits b.toNat (UInt8.lt_iff_toNat_lt.mp hlt)
      rw [hb, findAfter_skip, ih]
      have hfixed : quote ∉ ([92, 117, 48, 48] : Bytes) := by decide
      simp only [List.mem_cons, List.not_mem_nil, or_false, not_or] at hfixed ⊢
      exact ⟨hfixed.1, hfixed.2.1, hfixed.2.2.1, hfixed.2.2.2, h1.symm, h2.symm⟩
    · rw [hb, findAfter_skip, ih]
      simpa using hq.symm

inductive Flat : Doc → Prop
  | string (s : String) : Flat (Doc.string s)
  | scalar {token : Bytes} : (Doc.scalar token).WellFormed → Flat (.scalar token)

theorem findAfter_flat {d : Doc} (hd : Flat d) (hkey : IsKey key) (ht : Follows t) :
    findAfter (keyNeedle key next) (d.render ++ t) = findAfter (keyNeedle key next) t := by
  cases hd with
  | string s =>
    have hrender : (Doc.string s).render ++ t =
        quote :: (escape escapeByte (utf8 s) ++ quote :: t) := by
      simp [Doc.string, Doc.render]
    have hopen : ¬ keyNeedle key next <+: quote :: (escape escapeByte (utf8 s) ++ quote :: t) := by
      rintro ⟨r, hr⟩
      have htext : key ++ quote :: (colon :: (next ++ r)) =
          escape escapeByte (utf8 s) ++ quote :: t := by
        simpa [keyNeedle] using (List.cons.inj hr).2
      have hrest := escape_append_quote_inj (fun b hb => (hkey.2 b hb).1) htext
      obtain ⟨c, t, rfl, -, hcolon⟩ := ht
      exact hcolon (List.cons.inj hrest).1.symm
    rw [hrender, findAfter_cons hopen, findAfter_escape hkey ht]
  | scalar htoken =>
    apply findAfter_skip
    intro hmem
    have hquote := htoken.2 _ hmem
    simp [isDelimiter, quote] at hquote

def fieldsTail : List (Bytes × Doc) → Bytes
  | [] => [closeBrace]
  | f :: fs => comma :: (renderFields (f :: fs) ++ [closeBrace])

theorem follows_fieldsTail (fs : List (Bytes × Doc)) : Follows (fieldsTail fs) := by
  cases fs with
  | nil => exact ⟨closeBrace, [], rfl, by decide, by decide⟩
  | cons f fs => exact ⟨comma, _, rfl, by decide, by decide⟩

theorem renderFields_cons (k : Bytes) (d : Doc) (fs : List (Bytes × Doc)) :
    renderFields ((k, d) :: fs) ++ [closeBrace] =
      quote :: (k ++ quote :: colon :: (d.render ++ fieldsTail fs)) := by
  cases fs with
  | nil => simp [renderFields, fieldsTail]
  | cons f fs => simp [renderFields, fieldsTail]

/-- What follows the needle in the first field that has the key, and a value that starts as
asked. -/
def afterField (key next : Bytes) : List (Bytes × Doc) → Option Bytes
  | [] => none
  | (k, d) :: fs =>
    if k = key ∧ next <+: d.render then some (d.render.drop next.length ++ fieldsTail fs)
    else afterField key next fs

theorem quote_not_mem {key : Bytes} (h : IsKey key) : quote ∉ key := by
  intro hmem
  exact (h.2 _ hmem).1.1 rfl

theorem render_ne_nil {d : Doc} (h : Flat d) : d.render ≠ [] := by
  cases h with
  | string s => simp [Doc.string, Doc.render]
  | scalar htoken => exact htoken.1

/-- The search finds a field of the object, and nothing else. -/
theorem findAfter_renderFields (hkey : IsKey key) (hnext : next.length ≤ 1)
    (fs : List (Bytes × Doc)) (hfs : ∀ f ∈ fs, IsKey f.1 ∧ Flat f.2) :
    findAfter (keyNeedle key next) (renderFields fs ++ [closeBrace]) =
      afterField key next fs := by
  induction fs with
  | nil =>
    have hbrace : quote ∉ [closeBrace] := by decide
    have hskip : findAfter (keyNeedle key next) [closeBrace] =
        findAfter (keyNeedle key next) [] := findAfter_skip hbrace []
    rw [renderFields, List.nil_append, hskip]
    simp [findAfter, keyNeedle, afterField]
  | cons f fs ih =>
    obtain ⟨k, d⟩ := f
    obtain ⟨hk, hd⟩ := hfs (k, d) (by simp)
    rw [renderFields_cons, afterField]
    by_cases hhit : k = key ∧ next <+: d.render
    · obtain ⟨rfl, r, hr⟩ := hhit
      have htext : quote :: (k ++ quote :: colon :: (d.render ++ fieldsTail fs)) =
          keyNeedle k next ++ (r ++ fieldsTail fs) := by
        simp [keyNeedle, ← hr]
      rw [htext, findAfter_hit, if_pos ⟨rfl, r, hr⟩, ← hr, List.drop_left]
    · -- another key, or another value, does not begin with the needle
      have hopen : ¬ keyNeedle key next <+:
          quote :: (k ++ quote :: colon :: (d.render ++ fieldsTail fs)) := by
        rintro ⟨r, hr⟩
        have htext : key ++ quote :: (colon :: (next ++ r)) =
            k ++ quote :: (colon :: (d.render ++ fieldsTail fs)) := by
          simpa [keyNeedle] using (List.cons.inj hr).2
        obtain ⟨rfl, hrest⟩ := append_quote_inj (quote_not_mem hkey) (quote_not_mem hk) htext
        apply hhit
        apply And.intro rfl
        have hlen : 0 < d.render.length := List.length_pos_iff.mpr (render_ne_nil hd)
        exact List.prefix_of_prefix_length_le ⟨r, (List.cons.inj hrest).2⟩
          (List.prefix_append _ _) (by omega)
      have hcolon : quote ∉ [colon] := by decide
      have hskip : findAfter (keyNeedle key next) (colon :: (d.render ++ fieldsTail fs)) =
          findAfter (keyNeedle key next) (d.render ++ fieldsTail fs) := findAfter_skip hcolon _
      have htail : findAfter (keyNeedle key next) (fieldsTail fs) = afterField key next fs := by
        rw [← ih fun f hf => hfs f (by simp [hf])]
        cases fs with
        | nil => rfl
        | cons f fs =>
          have hcomma : quote ∉ [comma] := by decide
          exact findAfter_skip hcomma _
      rw [if_neg hhit, findAfter_cons hopen, findAfter_skip (quote_not_mem hk),
        findAfter_closing hkey (by decide)]
      exact hskip.trans ((findAfter_flat hd hkey (follows_fieldsTail fs)).trans htail)

theorem findAfter_object (hkey : IsKey key) (hnext : next.length ≤ 1)
    (fs : List (Bytes × Doc)) (hfs : ∀ f ∈ fs, IsKey f.1 ∧ Flat f.2) :
    findAfter (keyNeedle key next) (Doc.object fs).render = afterField key next fs := by
  have hbrace : quote ∉ [openBrace] := by decide
  rw [← findAfter_renderFields hkey hnext fs hfs]
  exact findAfter_skip hbrace _

/-- The keys of an object are as a search needs them: each once, and written as it is. -/
structure Searchable (fields : List (String × Doc)) : Prop where
  nodup : (fields.map Prod.fst).Nodup
  keys : ∀ f ∈ fields, IsKey (utf8 f.1)
  flat : ∀ f ∈ fields, Flat f.2

variable {fields : List (String × Doc)} {name : String} {d : Doc}

theorem Searchable.findAfter_eq (h : Searchable fields) (hname : IsKey (utf8 name))
    (hnext : next.length ≤ 1) :
    findAfter (keyNeedle (utf8 name) next) (Doc.struct fields).render =
      afterField (utf8 name) next (fields.map fun f => (utf8 f.1, f.2)) := by
  have hkeys : (fields.map fun f => (escape escapeByte (utf8 f.1), f.2)) =
      fields.map fun f => (utf8 f.1, f.2) := by
    apply List.map_congr_left
    intro f hf
    rw [escape_of_unescaped fun b hb => ((h.keys f hf).2 b hb).1]
  rw [Doc.struct, hkeys]
  apply findAfter_object hname hnext
  simp only [List.mem_map, forall_exists_index, and_imp, forall_apply_eq_imp_iff₂]
  exact fun f hf => ⟨h.keys f hf, h.flat f hf⟩

theorem Searchable.findAfter_of_mem (h : Searchable fields) (hmem : (name, d) ∈ fields)
    (hlen : next.length ≤ 1) (hnext : next <+: d.render) :
    ∃ t, Follows t ∧ findAfter (keyNeedle (utf8 name) next) (Doc.struct fields).render =
      some (d.render.drop next.length ++ t) := by
  rw [h.findAfter_eq (h.keys _ hmem) hlen]
  have hnodup := h.nodup
  clear h
  induction fields with
  | nil => simp at hmem
  | cons f fields ih =>
    rw [List.map_cons, List.nodup_cons] at hnodup
    rw [List.map_cons, afterField]
    by_cases hf : f = (name, d)
    · subst hf
      rw [if_pos ⟨rfl, hnext⟩]
      exact ⟨_, follows_fieldsTail _, rfl⟩
    · have hrest : (name, d) ∈ fields := (List.mem_cons.mp hmem).resolve_left fun h => hf h.symm
      have hne : utf8 f.1 ≠ utf8 name := by
        intro heq
        apply hnodup.1
        rw [utf8_injective heq]
        exact List.mem_map_of_mem hrest
      rw [if_neg fun h => hne h.1]
      exact ih hrest hnodup.2

/-- A field that is not in the object is not found. -/
theorem Searchable.findAfter_of_not_mem (h : Searchable fields) (hname : IsKey (utf8 name))
    (hlen : next.length ≤ 1) (hnot : name ∉ fields.map Prod.fst) :
    findAfter (keyNeedle (utf8 name) next) (Doc.struct fields).render = none := by
  rw [h.findAfter_eq hname hlen]
  clear h
  induction fields with
  | nil => rfl
  | cons f fields ih =>
    rw [List.map_cons, List.mem_cons, not_or] at hnot
    rw [List.map_cons, afterField, if_neg fun h => hnot.1 (utf8_injective h.1).symm]
    exact ih hnot.2

theorem length_escape_le (s : Bytes) : s.length ≤ (escape escapeByte s).length := by
  induction s with
  | nil => simp
  | cons b s ih =>
    rw [escape, List.flatMap_cons, List.length_append, List.length_cons]
    change s.length + 1 ≤ (escapeByte b).length + (escape escapeByte s).length
    have hb : 1 ≤ (escapeByte b).length := by
      rcases escapeByte_cases b with ⟨d, hb, -⟩ | ⟨-, hb⟩ | ⟨-, -, -, hb⟩ <;> simp [hb]
    omega

/-- Only what is written as it is keeps its length. -/
theorem unescaped_of_escape_eq {s : Bytes} (h : escape escapeByte s = s) :
    ∀ b ∈ s, Unescaped b := by
  induction s with
  | nil => simp
  | cons b s ih =>
    have htail := length_escape_le s
    have hlen := congrArg List.length h
    rw [escape, List.flatMap_cons, List.length_append, List.length_cons] at hlen
    change (escapeByte b).length + (escape escapeByte s).length = s.length + 1 at hlen
    rw [escape, List.flatMap_cons] at h
    change escapeByte b ++ escape escapeByte s = b :: s at h
    rcases escapeByte_cases b with ⟨d, hb, -⟩ | ⟨-, hb⟩ | ⟨-, -, -, hb⟩
    · rw [hb] at hlen
      simp only [List.length_cons, List.length_nil] at hlen
      omega
    · rw [hb] at hlen
      simp only [List.length_cons, List.length_nil] at hlen
      omega
    · rw [hb, List.singleton_append] at h
      intro c hc
      rcases List.mem_cons.mp hc with rfl | hc
      · exact (escapeByte_eq_self_iff c).mp hb
      · exact ih (List.cons.inj h).2 c hc

/-- A quote in a written string comes from a quote. -/
theorem quote_mem_of_mem_escape {s : Bytes} (h : quote ∈ escape escapeByte s) : quote ∈ s := by
  have hall : ∀ b : UInt8, quote ∈ escapeByte b → b = quote := by
    apply forall_byte
    decide +kernel
  obtain ⟨b, hb, hmem⟩ := List.mem_flatMap.mp h
  exact hall b hmem ▸ hb

/-- Up to its first quote a written string is the string itself exactly where nothing in it
was escaped. -/
theorem takeWhile_escape_eq_iff (s : Bytes) :
    (escape escapeByte s).takeWhile (· ≠ quote) = s ↔ ∀ b ∈ s, Unescaped b := by
  constructor
  · intro h
    have hnot : quote ∉ s := by
      intro hmem
      rw [← h] at hmem
      simpa using List.mem_takeWhile_imp hmem
    have hwhole : (escape escapeByte s).takeWhile (· ≠ quote) = escape escapeByte s := by
      apply List.takeWhile_eq_self_iff.mpr
      intro b hb
      simp only [ne_eq, decide_not, Bool.not_eq_true', decide_eq_false_iff_not]
      rintro rfl
      exact hnot (quote_mem_of_mem_escape hb)
    exact unescaped_of_escape_eq (hwhole.symm.trans h)
  · intro h
    rw [escape_of_unescaped h]
    apply List.takeWhile_eq_self_iff.mpr
    intro b hb
    simpa using (h b hb).1

end Json
