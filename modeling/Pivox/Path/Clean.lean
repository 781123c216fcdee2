import Pivox.Path.Match

/-!
Lexical path processing as Go's path.Clean, filepath.Join and filepath.Abs do it, one segment at a
time.
-/

namespace Path

def segments (p : Text) : List Text := p.splitOn '/'

def dot : Text := ['.']
def dotdot : Text := ['.', '.']

/- The segments kept so far, the last first: a dot-dot takes the one before it away. -/
def cleanStep (rooted : Bool) (out : List Text) (seg : Text) : List Text :=
  if seg = [] ∨ seg = dot then out
  else if seg = dotdot then
    match out with
    | [] => if rooted then [] else [dotdot]
    | top :: rest => if top = dotdot then dotdot :: out else rest
  else seg :: out

def isRooted (p : Text) : Bool := p.head? = some '/'

def kept (p : Text) : List Text := ((segments p).foldl (cleanStep (isRooted p)) []).reverse

def render (rooted : Bool) (segs : List Text) : Text :=
  if rooted then '/' :: List.intercalate ['/'] segs
  else if segs = [] then dot else List.intercalate ['/'] segs

def clean (p : Text) : Text := render (isRooted p) (kept p)

def join (dir file : Text) : Text :=
  if dir = [] then (if file = [] then [] else clean file) else clean (dir ++ '/' :: file)

/- strings.SplitN at the first slash: what stands before it, and after it if there is one. -/
def splitFirst : Text → Text × Option Text
  | [] => ([], none)
  | c :: p => if c = '/' then ([], some p) else ((splitFirst p).map (c :: ·) id)

/- filepath.Abs, where the working directory may be unknown. -/
def abs (cwd : Option Text) (p : Text) : Text :=
  if isRooted p then clean p else (cwd.map (join · p)).getD []

/- strings.Contains. -/
def contains (part : Text) : Text → Bool
  | [] => part = []
  | c :: p => part.isPrefixOf (c :: p) || contains part p

def trimPrefix (p start : Text) : Text := if start.isPrefixOf p then p.drop start.length else p

/-- A segment that stands for itself. -/
structure Normal (seg : Text) : Prop where
  ne_nil : seg ≠ []
  ne_dot : seg ≠ dot
  ne_dotdot : seg ≠ dotdot
  no_slash : '/' ∉ seg

/-- What cleaning leaves, the last first: only a relative path begins with dot-dots. -/
inductive Settled (rooted : Bool) : List Text → Prop where
  | nil : Settled rooted []
  | push {out : List Text} {seg : Text} : Settled rooted out → Normal seg →
      Settled rooted (seg :: out)
  | up {out : List Text} : rooted = false → (∀ s ∈ out, s = dotdot) → Settled rooted out →
      Settled rooted (dotdot :: out)

variable {rooted : Bool} {out segs : List Text} {seg p q : Text}

theorem cleanStep_normal (h : Normal seg) : cleanStep rooted out seg = seg :: out := by
  simp [cleanStep, h.ne_nil, h.ne_dot, h.ne_dotdot]

theorem cleanStep_nil : cleanStep rooted out [] = out := by simp [cleanStep]

theorem Settled.step (h : Settled rooted out) (hseg : '/' ∉ seg) :
    Settled rooted (cleanStep rooted out seg) := by
  by_cases hdot : seg = [] ∨ seg = dot
  · simpa [cleanStep, hdot] using h
  · obtain ⟨hnil, hdot⟩ := not_or.mp hdot
    by_cases hup : seg = dotdot
    · subst hup
      cases h with
      | nil =>
        cases rooted with
        | true => exact .nil
        | false => exact .up rfl (by simp) .nil
      | push hout hnormal =>
        simpa [cleanStep, hnil, hdot, hnormal.ne_dotdot] using hout
      | up hr hall hout =>
        have hpushed := Settled.up hr (by simpa using hall) (Settled.up hr hall hout)
        simpa [cleanStep, hnil, hdot] using hpushed
    · rw [cleanStep_normal ⟨hnil, hdot, hup, hseg⟩]
      exact .push h ⟨hnil, hdot, hup, hseg⟩

@[simp] theorem segments_nil : segments [] = [[]] := rfl

theorem segments_ne_nil (p : Text) : segments p ≠ [] := List.splitOn_ne_nil '/' p

theorem segments_dot : segments dot = [dot] := List.splitOn_eq_singleton (by simp [dot])

theorem segments_cons_slash (p : Text) : segments ('/' :: p) = [] :: segments p := by
  rw [segments, List.splitOn_cons_eq_if_modifyHead, if_pos (by simp)]
  rfl

theorem segments_cons {c : Char} (h : c ≠ '/') (p : Text) :
    segments (c :: p) = (segments p).modifyHead (c :: ·) := by
  rw [segments, List.splitOn_cons_eq_if_modifyHead, if_neg (by simpa using h)]
  rfl

theorem segments_append_slash (p q : Text) : segments (p ++ '/' :: q) = segments p ++ segments q :=
  List.splitOn_append_cons_self p q

theorem segments_intercalate (hne : segs ≠ []) (h : ∀ seg ∈ segs, '/' ∉ seg) :
    segments (List.intercalate ['/'] segs) = segs :=
  List.splitOn_intercalate '/' h hne

theorem intercalate_segments (p : Text) : List.intercalate ['/'] (segments p) = p :=
  List.intercalate_splitOn '/'

theorem not_mem_segments {seg : Text} (h : seg ∈ segments p) : '/' ∉ seg := by
  induction p generalizing seg with
  | nil =>
    obtain rfl : seg = [] := by simpa [segments] using h
    simp
  | cons c p ih =>
    by_cases hc : c = '/'
    · subst hc
      rw [segments_cons_slash, List.mem_cons] at h
      obtain rfl | h := h
      · simp
      · exact ih h
    · rw [segments_cons hc] at h
      cases hsegs : segments p with
      | nil => simp [hsegs] at h
      | cons s rest =>
        rw [hsegs, List.modifyHead_cons, List.mem_cons] at h
        obtain rfl | h := h
        · have hs : '/' ∉ s := ih (by simp [hsegs])
          simp [hs, Ne.symm hc]
        · exact ih (by simp [hsegs, h])

theorem Settled.foldl (h : Settled rooted out) (hsegs : ∀ seg ∈ segs, '/' ∉ seg) :
    Settled rooted (segs.foldl (cleanStep rooted) out) := by
  induction segs generalizing out with
  | nil => exact h
  | cons seg segs ih =>
    have hstep : Settled rooted (cleanStep rooted out seg) := h.step (hsegs seg (by simp))
    exact ih hstep fun s hs => hsegs s (List.mem_cons_of_mem _ hs)

theorem settled_kept (p : Text) : Settled (isRooted p) (kept p).reverse := by
  rw [kept, List.reverse_reverse]
  exact Settled.nil.foldl fun _ => not_mem_segments

/-- Cleaning what is clean changes nothing. -/
theorem Settled.foldl_reverse (h : Settled rooted out) :
    out.reverse.foldl (cleanStep rooted) [] = out := by
  induction h with
  | nil => rfl
  | push _ hseg ih => rw [List.reverse_cons, List.foldl_append, ih, List.foldl_cons, List.foldl_nil,
      cleanStep_normal hseg]
  | @up out hr hall _ ih =>
    rw [List.reverse_cons, List.foldl_append, ih, List.foldl_cons, List.foldl_nil]
    cases out with
    | nil => simp [cleanStep, hr, dotdot, dot]
    | cons top rest =>
      have htop : top = dotdot := hall top (by simp)
      simp [cleanStep, htop, dotdot, dot]

theorem Settled.mem (h : Settled rooted out) (hseg : seg ∈ out) : Normal seg ∨ seg = dotdot := by
  induction h with
  | nil => cases hseg
  | push _ hnormal ih =>
    obtain rfl | hseg := List.mem_cons.mp hseg
    · exact .inl hnormal
    · exact ih hseg
  | up _ _ _ ih =>
    obtain rfl | hseg := List.mem_cons.mp hseg
    · exact .inr rfl
    · exact ih hseg

theorem Settled.shape (h : Settled rooted out) (hseg : seg ∈ out) : seg ≠ [] ∧ '/' ∉ seg := by
  obtain hnormal | rfl := h.mem hseg
  · exact ⟨hnormal.ne_nil, hnormal.no_slash⟩
  · exact ⟨by simp [dotdot], by simp [dotdot]⟩

theorem kept_mem (h : seg ∈ kept p) : Normal seg ∨ seg = dotdot :=
  (settled_kept p).mem (List.mem_reverse.mpr h)

theorem kept_shape (h : seg ∈ kept p) : seg ≠ [] ∧ '/' ∉ seg :=
  (settled_kept p).shape (List.mem_reverse.mpr h)

theorem intercalate_cons (seg : Text) (hne : segs ≠ []) :
    List.intercalate ['/'] (seg :: segs) = seg ++ '/' :: List.intercalate ['/'] segs := by
  cases segs with
  | nil => exact absurd rfl hne
  | cons s segs => simp [List.intercalate_cons_cons]

theorem intercalate_append {segs' : List Text} (hne : segs ≠ []) (hne' : segs' ≠ []) :
    List.intercalate ['/'] (segs ++ segs') =
      List.intercalate ['/'] segs ++ '/' :: List.intercalate ['/'] segs' := by
  induction segs with
  | nil => exact absurd rfl hne
  | cons seg segs ih =>
    by_cases hnil : segs = []
    · subst hnil
      simpa using intercalate_cons seg hne'
    · rw [List.cons_append, intercalate_cons seg (by simp [hnil]), intercalate_cons seg hnil, ih hnil,
        List.append_assoc, List.cons_append]

theorem isRooted_intercalate (hne : segs ≠ []) (h : ∀ seg ∈ segs, seg ≠ [] ∧ '/' ∉ seg) :
    isRooted (List.intercalate ['/'] segs) = false := by
  cases segs with
  | nil => exact absurd rfl hne
  | cons s rest =>
    obtain ⟨hs, hslash⟩ := h s (by simp)
    cases s with
    | nil => exact absurd rfl hs
    | cons c s =>
      have hc : c ≠ '/' := by
        rintro rfl
        simp at hslash
      cases rest with
      | nil => simp [isRooted, hc]
      | cons t rest => simp [isRooted, List.intercalate_cons_cons, hc]

theorem isRooted_render (h : ∀ seg ∈ segs, seg ≠ [] ∧ '/' ∉ seg) :
    isRooted (render rooted segs) = rooted := by
  cases rooted with
  | true => rfl
  | false =>
    by_cases hne : segs = []
    · simp [render, hne, dot, isRooted]
    · simpa [render, hne] using isRooted_intercalate hne h

theorem kept_render (h : Settled rooted segs.reverse) : kept (render rooted segs) = segs := by
  have hmem : ∀ seg ∈ segs, seg ≠ [] ∧ '/' ∉ seg :=
    fun seg hseg => h.shape (List.mem_reverse.mpr hseg)
  have hfold : segs.foldl (cleanStep rooted) [] = segs.reverse := by
    simpa using h.foldl_reverse
  rw [kept, isRooted_render hmem]
  by_cases hne : segs = []
  · subst hne
    cases rooted with
    | true => simp [render, segments_cons_slash, segments_nil, cleanStep]
    | false => simp [render, segments_dot, cleanStep]
  · have hsegs : segments (List.intercalate ['/'] segs) = segs :=
      segments_intercalate hne fun seg hseg => (hmem seg hseg).2
    cases rooted with
    | true =>
      rw [render, if_pos rfl, segments_cons_slash, hsegs, List.foldl_cons, cleanStep_nil, hfold,
        List.reverse_reverse]
    | false => simp [render, hne, hsegs, hfold]

/-- Cleaning a path once more changes nothing. -/
theorem kept_clean (p : Text) : kept (clean p) = kept p := kept_render (settled_kept p)

theorem isRooted_clean (p : Text) : isRooted (clean p) = isRooted p :=
  isRooted_render fun _ => kept_shape

theorem foldl_normal (h : ∀ seg ∈ segs, Normal seg) :
    segs.foldl (cleanStep rooted) out = segs.reverse ++ out := by
  induction segs generalizing out with
  | nil => rfl
  | cons seg segs ih =>
    rw [List.foldl_cons, cleanStep_normal (h seg (by simp)),
      ih fun s hs => h s (List.mem_cons_of_mem _ hs)]
    simp

theorem contains_iff {part : Text} : contains part p = true ↔ part <:+: p := by
  induction p with
  | nil => simp [contains]
  | cons c p ih => simp [contains, List.infix_cons_iff, ih]

theorem infix_intercalate (h : seg ∈ segs) : seg <:+: List.intercalate ['/'] segs := by
  induction segs with
  | nil => cases h
  | cons s segs ih =>
    by_cases hnil : segs = []
    · subst hnil
      obtain rfl := List.mem_singleton.mp h
      simp
    · rw [intercalate_cons s hnil]
      obtain rfl | h := List.mem_cons.mp h
      · exact (List.prefix_append _ _).isInfix
      · exact (ih h).trans ((List.suffix_cons _ _).trans (List.suffix_append _ _)).isInfix

theorem infix_clean (h : seg ∈ kept p) : seg <:+: clean p := by
  have hinfix := infix_intercalate h
  have hne : kept p ≠ [] := List.ne_nil_of_mem h
  by_cases hroot : isRooted p = true
  · simpa [clean, render, hroot] using hinfix.trans (List.suffix_cons _ _).isInfix
  · simpa [clean, render, hroot, hne] using hinfix

theorem splitFirst_eq_some {a b : Text} :
    splitFirst p = (a, some b) ↔ p = a ++ '/' :: b ∧ '/' ∉ a := by
  induction p generalizing a with
  | nil => simp [splitFirst]
  | cons c p ih =>
    by_cases hc : c = '/'
    · subst hc
      cases a with
      | nil => simp [splitFirst]
      | cons c' a =>
        simp only [splitFirst, if_true, Prod.mk.injEq, List.cons_append, List.cons.injEq]
        constructor
        · rintro ⟨h, -⟩
          cases h
        · rintro ⟨⟨rfl, -⟩, hslash⟩
          exact absurd List.mem_cons_self hslash
    · cases a with
      | nil => simp [splitFirst, hc, Prod.ext_iff]
      | cons c' a =>
        cases hs : splitFirst p with
        | mk fst snd =>
          have ih' := @ih a
          rw [hs, Prod.mk.injEq] at ih'
          simp only [splitFirst, hc, if_false, hs, Prod.map_apply, id, Prod.mk.injEq,
            List.cons.injEq, List.cons_append, List.mem_cons, not_or]
          constructor
          · rintro ⟨⟨rfl, hfst⟩, hsnd⟩
            obtain ⟨hp, hslash⟩ := ih'.mp ⟨hfst, hsnd⟩
            exact ⟨⟨rfl, hp⟩, Ne.symm hc, hslash⟩
          · rintro ⟨⟨rfl, hp⟩, -, hslash⟩
            obtain ⟨hfst, hsnd⟩ := ih'.mpr ⟨hp, hslash⟩
            exact ⟨⟨rfl, hfst⟩, hsnd⟩

/-! What lies in a directory -/

/-- The file lies lexically inside the directory: its cleaned path goes on from the cleaned one of
the directory. -/
def Inside (dir file : Text) : Prop :=
  isRooted file = isRooted dir ∧
    ∃ rest : List Text, (∀ seg ∈ rest, Normal seg) ∧ kept file = kept dir ++ rest

/-- A path made of normal segments alone. -/
def Plain (p : Text) : Prop := ∀ seg ∈ segments p, Normal seg

theorem Plain.kept_eq (h : Plain p) : kept p = segments p := by
  rw [kept, foldl_normal h]
  simp

theorem Plain.isRooted_eq (h : Plain p) : isRooted p = false := by
  rw [← intercalate_segments p]
  exact isRooted_intercalate (segments_ne_nil p) fun seg hseg =>
    ⟨(h seg hseg).ne_nil, (h seg hseg).no_slash⟩

theorem Plain.clean_eq (h : Plain p) : clean p = p := by
  rw [clean, h.isRooted_eq, h.kept_eq, render, if_neg (by simp), if_neg (segments_ne_nil p),
    intercalate_segments]

theorem Plain.inside_join (h : Plain p) (dir : Text) : Inside dir (join dir p) := by
  by_cases hdir : dir = []
  · subst hdir
    have hp : p ≠ [] := by
      rintro rfl
      exact (h [] (by simp)).ne_nil rfl
    have hjoin : join [] p = p := by simp [join, hp, h.clean_eq]
    rw [hjoin]
    exact ⟨h.isRooted_eq, segments p, h, h.kept_eq⟩
  · have hroot : isRooted (dir ++ '/' :: p) = isRooted dir := by
      cases dir with
      | nil => exact absurd rfl hdir
      | cons c dir => rfl
    refine ⟨?_, segments p, h, ?_⟩
    · simp [join, hdir, isRooted_clean, hroot]
    · rw [join, if_neg hdir, kept_clean, kept, hroot, segments_append_slash, List.foldl_append,
        foldl_normal h, List.reverse_append, List.reverse_reverse]
      rfl

/-- The segments that cleaning keeps are the path's own when they read the same. -/
theorem plain_of_kept (h : List.intercalate ['/'] (kept p) = p) (hne : p ≠ [])
    (hup : dotdot ∉ kept p) : Plain p := by
  have hkept : kept p ≠ [] := by
    intro hnil
    rw [hnil] at h
    exact hne h.symm
  have hsegs : segments p = kept p := by
    rw [← segments_intercalate hkept fun seg hseg => (kept_shape hseg).2, h]
  intro seg hseg
  rw [hsegs] at hseg
  exact (kept_mem hseg).resolve_right fun hdd => hup (hdd ▸ hseg)

/-! What lies under a directory, by its segments -/

/-- The directory itself, or what follows it after a slash. -/
def Under (dir p : Text) : Prop := p = dir ∨ (dir ++ ['/']) <+: p

theorem segments_prefix_iff (hne : segs ≠ []) (h : ∀ seg ∈ segs, '/' ∉ seg) :
    segs <+: segments p ↔ Under (List.intercalate ['/'] segs) p := by
  constructor
  · rintro ⟨rest, hrest⟩
    by_cases hnil : rest = []
    · subst hnil
      left
      rw [← intercalate_segments p, ← hrest, List.append_nil]
    · right
      refine ⟨List.intercalate ['/'] rest, ?_⟩
      rw [← intercalate_segments p, ← hrest, List.append_assoc, List.singleton_append]
      exact (intercalate_append hne hnil).symm
  · rintro (rfl | ⟨rest, rfl⟩)
    · have hsegs := segments_intercalate hne h
      exact hsegs.symm ▸ List.prefix_rfl
    · rw [List.append_assoc, List.singleton_append, segments_append_slash,
        segments_intercalate hne h]
      exact List.prefix_append _ _

end Path
