import QueryScript.Catalog.Basic
import QueryScript.Proofs.Catalog.Keywords
import QueryScript.Proofs.Pattern.Reading
import QueryScript.Proofs.Text.Folding

/-!
# When a screen covers a pattern

A rule is tried only on fragments that some keyword hits, so the keywords of a rule
must be such that no fragment in which its pattern occurs goes unhit.  `covers`
decides a condition that is enough for that: it runs the pattern on what is known
of the text so far, a `Trail`, instead of on a text, and asks that every way through
the pattern ends in the knowledge that a keyword hits.  `hits_of_covers` is its
soundness.

A trail is what a reader of the pattern can be sure of: the small letters that were
read last, and how much of a token they make up.  Literals extend it; white space
and word boundaries end a token, which is where a word of the screen is recognised;
every other class and every other repetition forget it.

The characters that are ASCII letters up to case without being ASCII escape a screen
that lowers ASCII only; `hits_of_covers` therefore speaks of matches without them.
-/

namespace QueryScript.Screen

open QueryScript.Pattern (Reads isWordAt)
open QueryScript.Text (isAsciiWord IsForeign)

/-! ## Trails -/

/-- What is known at a place of a fragment, in small letters. -/
inductive Trail where
  /-- Some keyword hits the fragment. -/
  | hit
  /-- No word character follows. -/
  | closed
  /-- The text before the place ends in `recent`; if `token` is known, it is the piece of a
  token that ends here. -/
  | read (recent : List Char) (token : Option (List Char))
deriving DecidableEq, Repr

namespace Trail

/-- Nothing is known. -/
def unknown : Trail := .read [] none

/-- The character before is no ASCII word character. -/
def fresh : Trail := .read [] (some [])

/-- What a trail says of the place between two pieces of a fragment. -/
def Holds (screen : Screen) (pre post : List Char) : Trail → Prop
  | .hit => screen.hits (String.ofList (pre ++ post)) = true
  | .closed => isWordAt post.head? = false
  | .read recent token =>
    recent <:+ pre.map Char.toLower ∧
      ∀ t, token = some t →
        ∃ front, pre.map Char.toLower = front ++ t ∧
          (∀ c ∈ front.getLast?, isAsciiWord c = false) ∧ ∀ c ∈ t, isAsciiWord c = true

theorem holds_unknown (screen : Screen) (pre post : List Char) :
    unknown.Holds screen pre post :=
  ⟨List.nil_suffix, fun _ h => by cases h⟩

/-- A hit concerns the fragment as a whole, not the place. -/
theorem Holds.hit_append {screen : Screen} {pre post : List Char} (text : List Char)
    (h : Trail.hit.Holds screen pre (text ++ post)) : Trail.hit.Holds screen (pre ++ text) post := by
  show screen.hits (String.ofList (pre ++ text ++ post)) = true
  rw [List.append_assoc]
  exact h

/-! ## Steps -/

/-- Whether a word of the screen ends with the token. -/
def endsWord (screen : Screen) : Option (List Char) → Bool
  | some t => t ≠ [] && screen.words.any (·.toList == t)
  | none => false

/-- Whether a marker ends here, or the token begins with a stem. -/
def completes (screen : Screen) (recent : List Char) (token : Option (List Char)) : Bool :=
  screen.markers.any (·.toList.isSuffixOf recent) ||
    match token with
    | some t => t ≠ [] && screen.stems.any (·.toList.isPrefixOf t)
    | none => false

/-- The trail of what was read, unless that is a hit already. -/
def settle (screen : Screen) (recent : List Char) (token : Option (List Char)) : Trail :=
  if completes screen recent token then .hit else .read recent token

/-- After an ASCII character that is `d` in small letters. -/
def literal (screen : Screen) (d : Char) : Trail → List Trail
  | .hit => [.hit]
  | .closed => if isAsciiWord d then [] else [settle screen [d] (some [])]
  | .read recent token =>
    if isAsciiWord d then [settle screen (recent ++ [d]) (token.map (· ++ [d]))]
    else if endsWord screen token then [.hit]
    else [settle screen (recent ++ [d]) (some [])]

/-- After a white space character. -/
def blank (screen : Screen) : Trail → List Trail
  | .hit => [.hit]
  | .closed => [fresh]
  | .read _ token => if endsWord screen token then [.hit] else [fresh]

/-- At a word boundary. -/
def boundary (screen : Screen) : Trail → List Trail
  | .hit => [.hit]
  | .closed => [.closed]
  | .read recent none => [.closed, .read recent (some [])]
  | .read recent (some t) =>
    if t = [] then [.read recent (some [])]
    else if endsWord screen (some t) then [.hit]
    else [.closed]

/-- The class of white space. -/
def blankClass : Pattern.Class := ⟨false, [.named .space]⟩

/-- After a character of a class. -/
def step (screen : Screen) (cls : Pattern.Class) (trail : Trail) : List Trail :=
  if trail = .hit then [.hit]
  else if cls = blankClass then blank screen trail
  else
    match cls with
    | ⟨false, [.one d]⟩ => if d.toNat < 128 then literal screen d.toLower trail else [unknown]
    | _ => [unknown]

/-- After any number of repetitions of a pattern. -/
def repetition (screen : Screen) (body : Pattern) (trail : Trail) : List Trail :=
  if trail = .hit then [.hit]
  else if body = .set blankClass then trail :: blank screen trail
  else [unknown]

/-- The trails after a pattern, one for each way through it. -/
def scan (screen : Screen) : Pattern → Trail → List Trail
  | .empty, trail => [trail]
  | .set cls, trail => step screen cls trail
  | .anchor .wordBoundary, trail => boundary screen trail
  | .anchor _, trail => [trail]
  | .seq first second, trail => (scan screen first trail).flatMap (scan screen second)
  | .alt preferred other, trail => scan screen preferred trail ++ scan screen other trail
  | .star _ body, trail => repetition screen body trail

/-! ## A step keeps what is known true -/

variable {screen : Screen} {pre post : List Char} {c d : Char}

/-- A text to which no character of a token is known yet. -/
theorem holds_read_nil {recent : List Char} (hrecent : recent <:+ pre.map Char.toLower)
    (hlast : ∀ c ∈ pre.getLast?, isAsciiWord c = false) :
    (Trail.read recent (some [])).Holds screen pre post := by
  refine ⟨hrecent, fun t ht => ?_⟩
  obtain rfl : [] = t := Option.some.inj ht
  refine ⟨pre.map Char.toLower, (List.append_nil _).symm, ?_, fun _ h => by cases h⟩
  intro c hc
  rw [List.getLast?_map] at hc
  obtain ⟨last, hmem, rfl⟩ := Option.map_eq_some_iff.mp hc
  rw [Text.isAsciiWord_toLower]
  exact hlast last hmem

/-- A token that is a word of the screen hits once it is known to end. -/
theorem hits_of_endsWord {recent : List Char} {token : Option (List Char)}
    (h : (Trail.read recent token).Holds screen pre post) (hend : endsWord screen token = true)
    (hpost : ∀ c ∈ post.head?, isAsciiWord c = false) :
    Trail.hit.Holds screen pre post := by
  cases token with
  | none => cases hend
  | some t =>
    simp only [endsWord, Bool.and_eq_true, decide_eq_true_eq, List.any_eq_true,
      beq_iff_eq] at hend
    obtain ⟨hne, w, hw, rfl⟩ := hend
    obtain ⟨front, hsplit, hfront, hword⟩ := h.2 w.toList rfl
    refine hits_iff.mpr ⟨.word w, hw, ?_⟩
    rw [Keyword.Hits, String.toList_ofList, List.map_append, hsplit]
    refine mem_tokens hne hfront hword ?_
    intro c hc
    rw [List.head?_map] at hc
    obtain ⟨next, hmem, rfl⟩ := Option.map_eq_some_iff.mp hc
    rw [Text.isAsciiWord_toLower]
    exact hpost next hmem

/-- A word of the screen that the next character ends is a hit wherever the reading goes on. -/
theorem holds_hit_of_endsWord {recent : List Char} {token : Option (List Char)}
    (h : (Trail.read recent token).Holds screen pre (c :: post))
    (hend : endsWord screen token = true) (hc : isAsciiWord c = false) :
    Trail.hit.Holds screen (pre ++ [c]) post := by
  have hhit : Trail.hit.Holds screen pre ([c] ++ post) := by
    refine hits_of_endsWord h hend ?_
    intro x hx
    obtain rfl : c = x := Option.some.inj hx
    exact hc
  exact hhit.hit_append [c]

/-- Settling a trail loses no knowledge: it is a hit only where a keyword does hit. -/
theorem holds_settle {recent : List Char} {token : Option (List Char)}
    (h : (Trail.read recent token).Holds screen pre post) :
    (settle screen recent token).Holds screen pre post := by
  rw [settle]
  split
  next hdone =>
    unfold completes at hdone
    rw [Bool.or_eq_true] at hdone
    rcases hdone with hmarker | hstem
    · obtain ⟨m, hm, hsuffix⟩ := List.any_eq_true.mp hmarker
      refine hits_iff.mpr ⟨.marker m, hm, ?_⟩
      rw [Keyword.Hits, String.toList_ofList, List.map_append]
      have hrecent := (List.isSuffixOf_iff_suffix.mp hsuffix).trans h.1
      exact hrecent.isInfix.trans (List.prefix_append ..).isInfix
    · cases token with
      | none => cases hstem
      | some t =>
        simp only [Bool.and_eq_true, decide_eq_true_eq, List.any_eq_true] at hstem
        obtain ⟨hne, st, hst, hprefix⟩ := hstem
        obtain ⟨front, hsplit, hfront, hword⟩ := h.2 t rfl
        obtain ⟨rest, hmem⟩ := @prefix_mem_tokens front _ (post.map Char.toLower) hne hfront hword
        refine hits_iff.mpr ⟨.stem st, hst, t ++ rest, ?_, ?_⟩
        · rw [String.toList_ofList, List.map_append, hsplit]
          exact hmem
        · exact (List.isPrefixOf_iff_prefix.mp hprefix).trans (List.prefix_append t rest)
  next => exact h

theorem literal_sound {trail : Trail} (hlower : c.toLower = d)
    (h : trail.Holds screen pre (c :: post)) :
    ∃ next ∈ literal screen d trail, next.Holds screen (pre ++ [c]) post := by
  have hword : isAsciiWord d = isAsciiWord c := by rw [← hlower, Text.isAsciiWord_toLower]
  have hmap : (pre ++ [c]).map Char.toLower = pre.map Char.toLower ++ [d] := by
    rw [List.map_append, List.map_singleton, hlower]
  have hlast : isAsciiWord d = false → ∀ x ∈ (pre ++ [c]).getLast?, isAsciiWord x = false := by
    intro hd x hx
    rw [List.getLast?_concat] at hx
    obtain rfl : c = x := Option.some.inj hx
    rw [← hword, hd]
  cases trail with
  | hit => exact ⟨.hit, List.mem_singleton.mpr rfl, h.hit_append [c]⟩
  | closed =>
    have hd : isAsciiWord d = false := by
      rw [hword, Bool.eq_false_iff]
      intro hc
      have hclosed : Text.isWord c = false := h
      rw [Text.isWord_of_isAsciiWord hc] at hclosed
      cases hclosed
    rw [literal, if_neg (by rw [hd]; exact Bool.false_ne_true)]
    refine ⟨_, List.mem_singleton.mpr rfl, holds_settle (holds_read_nil ?_ (hlast hd))⟩
    rw [hmap]
    exact List.suffix_append ..
  | read recent token =>
    have hrecent : recent ++ [d] <:+ (pre ++ [c]).map Char.toLower := by
      obtain ⟨front, hfront⟩ := h.1
      exact ⟨front, by rw [hmap, ← hfront, List.append_assoc]⟩
    rw [literal]
    split
    next hd =>
      -- the token goes on
      refine ⟨_, List.mem_singleton.mpr rfl, holds_settle ⟨hrecent, fun t ht => ?_⟩⟩
      obtain ⟨t', rfl, rfl⟩ := Option.map_eq_some_iff.mp ht
      obtain ⟨front, hsplit, hfront, hall⟩ := h.2 t' rfl
      refine ⟨front, by rw [hmap, hsplit, List.append_assoc], hfront, ?_⟩
      intro x hx
      rcases List.mem_append.mp hx with hx | hx
      · exact hall x hx
      · rw [List.mem_singleton.mp hx, hd]
    next hd =>
      rw [Bool.not_eq_true] at hd
      split
      next hend =>
        rw [hword] at hd
        exact ⟨.hit, List.mem_singleton.mpr rfl, holds_hit_of_endsWord h hend hd⟩
      next =>
        exact ⟨_, List.mem_singleton.mpr rfl, holds_settle (holds_read_nil hrecent (hlast hd))⟩

theorem blank_sound {trail : Trail} (hblank : Text.isBlank c = true)
    (h : trail.Holds screen pre (c :: post)) :
    ∃ next ∈ blank screen trail, next.Holds screen (pre ++ [c]) post := by
  have hc := Text.isAsciiWord_of_isBlank hblank
  have hfresh : fresh.Holds screen (pre ++ [c]) post := by
    refine holds_read_nil List.nil_suffix ?_
    intro x hx
    rw [List.getLast?_concat] at hx
    obtain rfl : c = x := Option.some.inj hx
    exact hc
  cases trail with
  | hit => exact ⟨.hit, List.mem_singleton.mpr rfl, h.hit_append [c]⟩
  | closed => exact ⟨fresh, List.mem_singleton.mpr rfl, hfresh⟩
  | read recent token =>
    rw [blank]
    split
    next hend => exact ⟨.hit, List.mem_singleton.mpr rfl, holds_hit_of_endsWord h hend hc⟩
    next => exact ⟨fresh, List.mem_singleton.mpr rfl, hfresh⟩

/-- No word character of any script is in particular none of ASCII. -/
theorem not_isAsciiWord_of_isWordAt {o : Option Char} (h : isWordAt o = false) :
    ∀ c ∈ o, isAsciiWord c = false := by
  intro c hc
  subst hc
  rw [Bool.eq_false_iff]
  intro hc
  rw [isWordAt, Text.isWord_of_isAsciiWord hc] at h
  cases h

theorem boundary_sound {trail : Trail}
    (hboundary : isWordAt pre.getLast? ≠ isWordAt post.head?)
    (h : trail.Holds screen pre post) :
    ∃ next ∈ boundary screen trail, next.Holds screen pre post := by
  cases trail with
  | hit => exact ⟨.hit, List.mem_singleton.mpr rfl, h⟩
  | closed => exact ⟨.closed, List.mem_singleton.mpr rfl, h⟩
  | read recent token =>
    cases token with
    | none =>
      -- nothing is known of the side before, so either side may be the one with a word
      cases hpost : isWordAt post.head? with
      | false => exact ⟨.closed, List.mem_cons_self .., hpost⟩
      | true =>
        rw [hpost, ne_eq, Bool.not_eq_true] at hboundary
        refine ⟨.read recent (some []), List.mem_cons_of_mem _ (List.mem_singleton.mpr rfl), ?_⟩
        exact holds_read_nil h.1 (not_isAsciiWord_of_isWordAt hboundary)
    | some t =>
      rw [boundary]
      split
      next hnil =>
        rw [hnil] at h
        exact ⟨_, List.mem_singleton.mpr rfl, h⟩
      next hne =>
        -- the token ends in a word character, so none follows
        have hpost : isWordAt post.head? = false := by
          obtain ⟨front, hsplit, _, hall⟩ := h.2 t rfl
          have hlast : (pre.map Char.toLower).getLast? = some (t.getLast hne) := by
            rw [hsplit, List.getLast?_append, List.getLast?_eq_some_getLast hne]
            rfl
          rw [List.getLast?_map] at hlast
          obtain ⟨x, hx, hxt⟩ := Option.map_eq_some_iff.mp hlast
          have hword : isAsciiWord x = true := by
            rw [← Text.isAsciiWord_toLower, hxt]
            exact hall _ (List.getLast_mem hne)
          rw [hx, isWordAt, Text.isWord_of_isAsciiWord hword] at hboundary
          exact Bool.eq_false_iff.mpr hboundary.symm
        split
        next hend =>
          exact ⟨.hit, List.mem_singleton.mpr rfl,
            hits_of_endsWord h hend (not_isAsciiWord_of_isWordAt hpost)⟩
        next => exact ⟨.closed, List.mem_singleton.mpr rfl, hpost⟩

theorem step_sound {cls : Pattern.Class} {trail : Trail} (hcls : cls.contains c = true)
    (hc : ¬ IsForeign c) (h : trail.Holds screen pre (c :: post)) :
    ∃ next ∈ step screen cls trail, next.Holds screen (pre ++ [c]) post := by
  have hunknown : ∃ next ∈ [unknown], next.Holds screen (pre ++ [c]) post :=
    ⟨unknown, List.mem_singleton.mpr rfl, holds_unknown ..⟩
  unfold step
  split
  next hhit =>
    rw [hhit] at h
    exact ⟨.hit, List.mem_singleton.mpr rfl, h.hit_append [c]⟩
  next =>
    split
    next hblank =>
      rw [hblank, blankClass, Pattern.Class.contains, List.any_cons, List.any_nil, Bool.or_false,
        Bool.bne_false] at hcls
      exact blank_sound hcls h
    next =>
      split
      next e =>
        split
        next he =>
          rw [Pattern.Class.contains, List.any_cons, List.any_nil, Bool.or_false, Bool.bne_false,
            Pattern.Part.contains, beq_iff_eq] at hcls
          exact literal_sound (Text.toLower_eq_of_fold_eq he hcls hc).2 h
        next => exact hunknown
      next => exact hunknown

/-- White space after white space teaches nothing new. -/
theorem mem_blank_of_blank {trail next last : Trail} (hnext : next ∈ blank screen trail)
    (hlast : last ∈ repetition screen (.set blankClass) next) : last ∈ blank screen trail := by
  have hkeep : next = .hit ∨ next = fresh → last = next := by
    intro h
    rcases h with rfl | rfl
    · exact List.mem_singleton.mp hlast
    · rcases List.mem_cons.mp hlast with rfl | hlast
      · rfl
      · exact List.mem_singleton.mp hlast
  have hform : next = .hit ∨ next = fresh := by
    cases trail with
    | hit => exact .inl (List.mem_singleton.mp hnext)
    | closed => exact .inr (List.mem_singleton.mp hnext)
    | read recent token =>
      rw [blank] at hnext
      split at hnext
      · exact .inl (List.mem_singleton.mp hnext)
      · exact .inr (List.mem_singleton.mp hnext)
  rw [hkeep hform]
  exact hnext

/-- What is known before a repetition is known after none. -/
theorem repetition_sound {body : Pattern} {trail : Trail} (h : trail.Holds screen pre post) :
    ∃ next ∈ repetition screen body trail, next.Holds screen pre post := by
  rw [repetition]
  split
  next hhit => exact ⟨.hit, List.mem_singleton.mpr rfl, hhit ▸ h⟩
  next =>
    split
    · exact ⟨trail, List.mem_cons_self .., h⟩
    · exact ⟨unknown, List.mem_singleton.mpr rfl, holds_unknown ..⟩

/-- What is known after one more repetition is known after any number of them. -/
theorem repetition_more_sound {body : Pattern} {trail mid next : Trail}
    (hhit : trail = .hit → Trail.hit.Holds screen pre post) (hmid : mid ∈ scan screen body trail)
    (hnext : next ∈ repetition screen body mid) (h : next.Holds screen pre post) :
    ∃ next ∈ repetition screen body trail, next.Holds screen pre post := by
  rw [repetition]
  split
  next heq => exact ⟨.hit, List.mem_singleton.mpr rfl, hhit heq⟩
  next hne =>
    split
    next hbody =>
      subst hbody
      rw [scan] at hmid
      unfold step at hmid
      rw [if_neg hne, if_pos rfl] at hmid
      exact ⟨next, List.mem_cons_of_mem _ (mem_blank_of_blank hmid hnext), h⟩
    next => exact ⟨unknown, List.mem_singleton.mpr rfl, holds_unknown ..⟩

/-- **A scan follows every reading**: of the trails after a pattern, one says the truth about
the place where the reading ends. -/
theorem scan_sound {pattern : Pattern} {pre text post : List Char}
    (hread : Reads pattern pre text post) (hplain : ∀ c ∈ text, ¬ IsForeign c) :
    ∀ {trail : Trail}, trail.Holds screen pre (text ++ post) →
      ∃ next ∈ scan screen pattern trail, next.Holds screen (pre ++ text) post := by
  -- the trail stays general: a sequence goes on from whatever its first part has left
  induction hread with
  | empty =>
    intro trail h
    rw [List.append_nil]
    exact ⟨trail, List.mem_singleton.mpr rfl, h⟩
  | set hcls =>
    intro trail h
    exact step_sound hcls (hplain _ (List.mem_singleton.mpr rfl)) h
  | @anchor a pre post hanchor =>
    intro trail h
    rw [List.append_nil]
    cases a with
    | wordBoundary => exact boundary_sound (bne_iff_ne.mp hanchor) h
    | noWordBoundary => exact ⟨trail, List.mem_singleton.mpr rfl, h⟩
    | textStart => exact ⟨trail, List.mem_singleton.mpr rfl, h⟩
    | textEnd => exact ⟨trail, List.mem_singleton.mpr rfl, h⟩
  | seq _ _ ih₁ ih₂ =>
    intro trail h
    rw [List.append_assoc] at h
    obtain ⟨mid, hmid, hholds⟩ := ih₁ (fun c hc => hplain c (List.mem_append_left _ hc)) h
    obtain ⟨next, hnext, hlast⟩ := ih₂ (fun c hc => hplain c (List.mem_append_right _ hc)) hholds
    rw [← List.append_assoc]
    exact ⟨next, List.mem_flatMap.mpr ⟨mid, hmid, hnext⟩, hlast⟩
  | preferred _ ih =>
    intro trail h
    obtain ⟨next, hnext, hholds⟩ := ih hplain h
    exact ⟨next, List.mem_append_left _ hnext, hholds⟩
  | other _ ih =>
    intro trail h
    obtain ⟨next, hnext, hholds⟩ := ih hplain h
    exact ⟨next, List.mem_append_right _ hnext, hholds⟩
  | stop =>
    intro trail h
    rw [List.append_nil, scan]
    exact repetition_sound h
  | @more greedy body pre text rest post _ _ ih₁ ih₂ =>
    intro trail h
    have hhit : trail = .hit → Trail.hit.Holds screen (pre ++ (text ++ rest)) post := by
      rintro rfl
      exact h.hit_append _
    rw [List.append_assoc] at h
    obtain ⟨mid, hmid, hholds⟩ := ih₁ (fun c hc => hplain c (List.mem_append_left _ hc)) h
    obtain ⟨next, hnext, hlast⟩ := ih₂ (fun c hc => hplain c (List.mem_append_right _ hc)) hholds
    rw [← List.append_assoc] at hhit ⊢
    exact repetition_more_sound hhit hmid hnext hlast

end Trail

/-- Whether every way through a pattern ends in a hit. -/
def covers (screen : Screen) (pattern : Pattern) : Bool :=
  (Trail.scan screen pattern .unknown).all (· == .hit)

/-- **No match escapes a screen that covers the pattern**, as long as it is made without the
two foreign characters. -/
theorem hits_of_covers {screen : Screen} {pattern : Pattern} {s : String}
    {pre text post : List Char} (hcovers : screen.covers pattern = true)
    (hs : s.toList = pre ++ text ++ post) (hread : Reads pattern pre text post)
    (hplain : ∀ c ∈ text, ¬ IsForeign c) : screen.hits s = true := by
  obtain ⟨next, hnext, hholds⟩ :=
    Trail.scan_sound hread hplain (Trail.holds_unknown screen pre (text ++ post))
  have hhit : next = .hit := beq_iff_eq.mp (List.all_eq_true.mp hcovers next hnext)
  rw [hhit] at hholds
  have : s = String.ofList (pre ++ text ++ post) := by rw [← hs, String.ofList_toList]
  rw [this]
  exact hholds

end QueryScript.Screen
