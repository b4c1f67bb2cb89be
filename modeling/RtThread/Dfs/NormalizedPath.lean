import RtThread.Dfs.Normalize

/-!
# The path in place

While `dst` is behind `src`, what is written does not reach what is still to be read.
-/

namespace RtThread.Dfs

open LexicalPath (follow lowest)

/-- What the memory holds in front of `dst` and from `src` on. -/
structure Rewrites (fullpath : List Char) (src dst : Nat) (written unread : List Char) : Prop where
  behind : dst ≤ src
  inside : src ≤ fullpath.length
  written : fullpath.take dst = written
  unread : fullpath.drop src = unread

namespace Rewrites

variable {fullpath : List Char} {src dst : Nat} {written unread : List Char} {c : Char}

section

variable (rewrites : Rewrites fullpath src dst written unread)

include rewrites

theorem dst_eq : dst = written.length := by
  rw [← rewrites.written, List.length_take, Nat.min_eq_left]
  exact rewrites.behind.trans rewrites.inside

theorem getElem?_add (i : Nat) : fullpath[src + i]? = unread[i]? := by
  rw [← rewrites.unread, List.getElem?_drop]

theorem read : fullpath[src]? = unread[0]? := rewrites.getElem?_add 0

theorem advance (n : Nat) (within : n ≤ unread.length) :
    Rewrites fullpath (src + n) dst written (unread.drop n) where
  behind := rewrites.behind.trans (Nat.le_add_right ..)
  inside := by
    have unread := congrArg List.length rewrites.unread
    rw [List.length_drop] at unread
    have inside := rewrites.inside
    omega
  written := rewrites.written
  unread := by rw [← rewrites.unread, List.drop_drop]

theorem store (behind : dst < src) (c : Char) :
    Rewrites (fullpath.set dst c) src (dst + 1) (written ++ [c]) unread where
  behind := behind
  inside := by rw [List.length_set]; exact rewrites.inside
  written := by
    have inside : dst < fullpath.length := Nat.lt_of_lt_of_le behind rewrites.inside
    rw [List.take_set, List.take_succ_eq_append_getElem inside, rewrites.written,
      List.set_append_right _ _ rewrites.dst_eq.ge, ← rewrites.dst_eq, Nat.sub_self]
    rfl
  unread := by rw [List.drop_set_of_lt behind, rewrites.unread]

end

theorem back {front : List Char} (rewrites : Rewrites fullpath src dst (front ++ written) unread) :
    Rewrites fullpath src front.length front unread where
  behind := by
    have length := rewrites.dst_eq
    rw [List.length_append] at length
    have behind := rewrites.behind
    omega
  inside := rewrites.inside
  written := by
    have shorter : front.length ≤ dst := by
      rw [rewrites.dst_eq, List.length_append]
      exact Nat.le_add_right ..
    have taken := congrArg (List.take front.length) rewrites.written
    rwa [List.take_take, Nat.min_eq_left shorter, List.take_left] at taken
  unread := rewrites.unread

end Rewrites

section Loops

variable {fullpath : List Char} {src dst : Nat} {written name rest : List Char} {stop : Char}

structure IsName (name : List Char) : Prop where
  separated : '/' ∉ name
  terminated : '\x00' ∉ name

theorem copyName_read {c : Char} (found : fullpath[src]? = some c) (dst : Nat) :
    copyName fullpath src dst = if c ≠ '\x00' ∧ c ≠ '/' then
        if dst < fullpath.length then copyName (fullpath.set dst c) (src + 1) (dst + 1) else none
      else some (fullpath, src + 1, dst, c) := by
  rw [copyName]
  split
  · rename_i outside
    rw [found] at outside
    contradiction
  · rename_i u same
    obtain rfl : c = u := Option.some.inj (found.symm.trans same)
    rfl

theorem skipSlashes_read {c : Char} (found : fullpath[src]? = some c) :
    skipSlashes fullpath src = if c = '/' then skipSlashes fullpath (src + 1) else some src := by
  rw [skipSlashes]
  split
  · rename_i outside
    rw [found] at outside
    contradiction
  · rename_i u same
    obtain rfl : c = u := Option.some.inj (found.symm.trans same)
    rfl

theorem copyName_spec (isName : IsName name) (stops : stop = '\x00' ∨ stop = '/')
    (rewrites : Rewrites fullpath src dst written (name ++ stop :: rest)) :
    ∃ after, copyName fullpath src dst =
        some (after, src + name.length + 1, dst + name.length, stop) ∧
      after.length = fullpath.length ∧
      Rewrites after (src + name.length + 1) (dst + name.length) (written ++ name) rest := by
  induction name generalizing fullpath src dst written with
  | nil =>
    have found : fullpath[src]? = some stop := rewrites.read
    have isStop : ¬(stop ≠ '\x00' ∧ stop ≠ '/') := by
      rintro ⟨notNul, notSlash⟩
      exact stops.elim notNul notSlash
    refine ⟨fullpath, ?_, rfl, ?_⟩
    · rw [copyName_read found, if_neg isStop]
      rfl
    · simpa using rewrites.advance 1 (by simp)
  | cons c name ih =>
    have found : fullpath[src]? = some c := rewrites.read
    have continues : c ≠ '\x00' ∧ c ≠ '/' :=
      ⟨fun isNul => isName.terminated (isNul ▸ List.mem_cons_self ..),
        fun isSlash => isName.separated (isSlash ▸ List.mem_cons_self ..)⟩
    have later : IsName name :=
      ⟨fun inside => isName.separated (List.mem_cons_of_mem _ inside),
        fun inside => isName.terminated (List.mem_cons_of_mem _ inside)⟩
    have inside : dst < fullpath.length :=
      Nat.lt_of_le_of_lt rewrites.behind (List.getElem?_eq_some_iff.mp found).1
    have next : Rewrites (fullpath.set dst c) (src + 1) (dst + 1) (written ++ [c])
        (name ++ stop :: rest) := by
      have advanced := rewrites.advance 1 (by simp)
      exact advanced.store (Nat.lt_succ_of_le rewrites.behind) c
    obtain ⟨after, copied, length, afterRewrites⟩ := ih later next
    refine ⟨after, ?_, by rw [length, List.length_set], ?_⟩
    · rw [copyName_read found, if_pos continues, if_pos inside, copied]
      simp only [List.length_cons, Nat.add_assoc, Nat.add_comm 1]
    · simpa only [List.length_cons, List.append_assoc, List.singleton_append, Nat.add_assoc,
        Nat.add_comm 1] using afterRewrites

def trimmed (path : List Char) : List Char := path.dropWhile (· = '/')

theorem skipSlashes_spec {path : List Char} (terminated : '\x00' ∉ path)
    (rewrites : Rewrites fullpath src dst written (path ++ ['\x00'])) :
    ∃ after, skipSlashes fullpath src = some after ∧ src ≤ after ∧
      Rewrites fullpath after dst written (trimmed path ++ ['\x00']) := by
  induction path generalizing src with
  | nil =>
    refine ⟨src, ?_, le_refl src, rewrites⟩
    rw [skipSlashes_read rewrites.read, if_neg (by decide)]
  | cons c path ih =>
    have found : fullpath[src]? = some c := rewrites.read
    rw [skipSlashes_read found]
    by_cases isSlash : c = '/'
    · subst isSlash
      have next : Rewrites fullpath (src + 1) dst written (path ++ ['\x00']) :=
        rewrites.advance 1 (by simp)
      obtain ⟨after, skipped, further, afterRewrites⟩ :=
        ih (fun inside => terminated (List.mem_cons_of_mem _ inside)) next
      refine ⟨after, by simp [skipped], by omega, ?_⟩
      simpa [trimmed] using afterRewrites
    · refine ⟨src, by simp [isSlash], le_refl src, ?_⟩
      simpa [trimmed, isSlash] using rewrites

theorem stepBack_spec (inside : dst ≤ fullpath.length) (taken : fullpath.take dst = written ++ name)
    (separated : '/' ∉ name) (ends : written = [] ∨ ∃ front, written = front ++ ['/']) :
    stepBack fullpath dst = some written.length := by
  induction dst generalizing name with
  | zero =>
    have empty : written = [] := by exact (List.append_eq_nil_iff.mp taken.symm).1
    rw [empty]
    rfl
  | succ dst ih =>
    have last : fullpath.take (dst + 1) = fullpath.take dst ++ [fullpath[dst]] :=
      List.take_succ_eq_append_getElem inside
    have length := congrArg List.length taken
    rw [List.length_take, Nat.min_eq_left inside, List.length_append] at length
    simp only [stepBack, List.getElem?_eq_getElem inside]
    rcases List.eq_nil_or_concat' name with rfl | ⟨shorter, c, rfl⟩
    · rcases ends with rfl | ⟨front, rfl⟩
      · simp at length
      · rw [List.append_nil, last] at taken
        have isSlash : fullpath[dst] = '/' := by simpa using (List.append_inj' taken rfl).2
        rw [if_neg (by simpa using isSlash)]
        exact congrArg some (by simpa using length)
    · rw [last, ← List.append_assoc] at taken
      obtain ⟨before, isLast⟩ := List.append_inj' taken rfl
      have notSlash : fullpath[dst] ≠ '/' := by
        intro isSlash
        rw [isSlash] at isLast
        exact separated (by simp [← List.singleton_inj.mp isLast])
      rw [if_pos notSlash]
      exact ih (by omega) before
        (fun inside => separated (List.mem_append_left _ inside))

end Loops

section Turns

variable {fullpath : List Char} {src dst : Nat} {written name rest : List Char}
  {names : List (List Char)}

theorem readDots_name (isName : IsName name) {stop : Char} (stops : stop = '\x00' ∨ stop = '/')
    (notDot : name ≠ ['.']) (notDots : name ≠ ['.', '.'])
    (rewrites : Rewrites fullpath src dst written (name ++ stop :: rest)) :
    readDots fullpath src = some (.copy src) := by
  have zeroth := rewrites.read
  have first := rewrites.getElem?_add 1
  have second := rewrites.getElem?_add 2
  have notEnd : ∀ c ∈ name, c ≠ '\x00' ∧ c ≠ '/' := fun c isChar =>
    ⟨fun isNul => isName.terminated (isNul ▸ isChar),
      fun isSlash => isName.separated (isSlash ▸ isChar)⟩
  have stopNotDot : stop ≠ '.' := by rcases stops with rfl | rfl <;> decide
  match name with
  | [] =>
    simp [readDots, zeroth, stopNotDot]
  | [c] =>
    have isOther : c ≠ '.' := fun isDot => notDot (by rw [isDot])
    simp [readDots, zeroth, isOther]
  | c :: d :: others =>
    have dNotEnd := notEnd d (by simp)
    by_cases isDot : c = '.'
    · by_cases isDots : d = '.'
      · match others with
        | [] => exact absurd (by rw [isDot, isDots]) notDots
        | e :: others =>
          have eNotEnd := notEnd e (by simp)
          simp [readDots, zeroth, first, second, isDots, eNotEnd]
      · simp [readDots, zeroth, first, isDots, dNotEnd]
    · simp [readDots, zeroth, isDot]

theorem turn_name_slash (isName : IsName name) (notDot : name ≠ ['.'])
    (notDots : name ≠ ['.', '.']) (terminated : '\x00' ∉ rest)
    (rewrites : Rewrites fullpath src dst (slashed.spell names)
      (name ++ '/' :: (rest ++ ['\x00']))) :
    ∃ after src' dst', turn fullpath src dst = some (.again after src' dst') ∧
      Rewrites after src' dst' (slashed.spell (names ++ [name])) (trimmed rest ++ ['\x00']) := by
  obtain ⟨copied, isCopied, n, copiedRewrites⟩ := copyName_spec isName (.inr rfl) rewrites
  have inside : dst + name.length < copied.length := by
    have behind := rewrites.behind
    have within := copiedRewrites.inside
    omega
  have stored := copiedRewrites.store
    (Nat.lt_succ_of_le (Nat.add_le_add_right rewrites.behind name.length)) '/'
  obtain ⟨src', skipped, -, skippedRewrites⟩ := skipSlashes_spec terminated stored
  refine ⟨copied.set (dst + name.length) '/', src', dst + name.length + 1, ?_, ?_⟩
  · simp [turn, readDots_name isName (.inr rfl) notDot notDots rewrites, isCopied, Dfs.store,
      inside, skipped]
  · rwa [slashed.spell_append, ← List.append_assoc]

theorem turn_name_end (isName : IsName name) (notDot : name ≠ ['.']) (notDots : name ≠ ['.', '.'])
    (rewrites : Rewrites fullpath src dst written (name ++ ['\x00'])) :
    ∃ after dst', turn fullpath src dst = some (.ended after dst') ∧ dst' < after.length ∧
      after.take dst' = written ++ name := by
  obtain ⟨copied, isCopied, n, copiedRewrites⟩ := copyName_spec isName (.inl rfl) rewrites
  refine ⟨copied, dst + name.length, ?_, ?_, copiedRewrites.written⟩
  · simp [turn, readDots_name isName (.inl rfl) notDot notDots rewrites, isCopied]
  · have behind := rewrites.behind
    have within := copiedRewrites.inside
    omega

theorem turn_dot_slash (terminated : '\x00' ∉ rest)
    (rewrites : Rewrites fullpath src dst written ('.' :: '/' :: (rest ++ ['\x00']))) :
    ∃ src', turn fullpath src dst = some (.again fullpath src' dst) ∧
      Rewrites fullpath src' dst written (trimmed rest ++ ['\x00']) := by
  have zeroth := rewrites.read
  have first := rewrites.getElem?_add 1
  have advanced : Rewrites fullpath (src + 2) dst written (rest ++ ['\x00']) :=
    rewrites.advance 2 (by simp)
  obtain ⟨src', skipped, -, skippedRewrites⟩ := skipSlashes_spec terminated advanced
  refine ⟨src', ?_, skippedRewrites⟩
  simp [turn, readDots, zeroth, first, skipped]

theorem turn_dot_end (rewrites : Rewrites fullpath src dst written ['.', '\x00']) :
    turn fullpath src dst = some (.ended fullpath dst) := by
  have zeroth := rewrites.read
  have first := rewrites.getElem?_add 1
  have stops : copyName fullpath (src + 1) dst = some (fullpath, src + 2, dst, '\x00') := by
    rw [copyName_read first, if_neg (by decide)]
  simp [turn, readDots, zeroth, first, stops]

theorem turn_upOne {src' : Nat} {unread : List Char}
    (isUp : readDots fullpath src = some (.upOne src')) (separated : ∀ name ∈ names, '/' ∉ name)
    (rewrites : Rewrites fullpath src' dst (slashed.spell names) unread) :
    (names = [] ∧ turn fullpath src dst = some .null) ∨
      ∃ front dst', (∃ name, names = front ++ [name]) ∧
        turn fullpath src dst = some (.again fullpath src' dst') ∧
        Rewrites fullpath src' dst' (slashed.spell front) unread := by
  rcases List.eq_nil_or_concat' names with rfl | ⟨front, name, rfl⟩
  · have isZero : dst = 0 := rewrites.dst_eq
    exact .inl ⟨rfl, by simp [turn, isUp, isZero]⟩
  · right
    rw [slashed.spell_append] at rewrites
    have length := rewrites.dst_eq
    have shorter : Rewrites fullpath src' (slashed.spell front ++ name).length
        (slashed.spell front ++ name) unread := by
      rw [← List.append_assoc] at rewrites
      exact rewrites.back
    have endsSlash : slashed.spell front = [] ∨
        ∃ before, slashed.spell front = before ++ ['/'] := by
      rcases List.eq_nil_or_concat' front with rfl | ⟨before, last, rfl⟩
      · exact .inl rfl
      · refine .inr ⟨slashed.spell before ++ last, ?_⟩
        rw [slashed.spell_append, List.append_assoc]
    have back := stepBack_spec (shorter.behind.trans shorter.inside) shorter.written
      (separated name (by simp)) endsSlash
    refine ⟨front, (slashed.spell front).length, ⟨name, rfl⟩, ?_, shorter.back⟩
    have succ : dst = (slashed.spell front ++ name).length + 1 := by
      rw [length]
      simp [Nat.add_assoc]
    rw [List.length_append] at back succ
    simp [turn, isUp, succ, back]

theorem readDots_dots_slash (terminated : '\x00' ∉ rest)
    (rewrites : Rewrites fullpath src dst written ('.' :: '.' :: '/' :: (rest ++ ['\x00']))) :
    ∃ src', readDots fullpath src = some (.upOne src') ∧
      Rewrites fullpath src' dst written (trimmed rest ++ ['\x00']) := by
  have zeroth := rewrites.read
  have first := rewrites.getElem?_add 1
  have second := rewrites.getElem?_add 2
  have advanced : Rewrites fullpath (src + 3) dst written (rest ++ ['\x00']) :=
    rewrites.advance 3 (by simp)
  obtain ⟨src', skipped, -, skippedRewrites⟩ := skipSlashes_spec terminated advanced
  refine ⟨src', ?_, skippedRewrites⟩
  simp [readDots, zeroth, first, second, skipped]

theorem readDots_dots_end (rewrites : Rewrites fullpath src dst written ['.', '.', '\x00']) :
    readDots fullpath src = some (.upOne (src + 2)) ∧
      Rewrites fullpath (src + 2) dst written ['\x00'] := by
  have zeroth := rewrites.read
  have first := rewrites.getElem?_add 1
  have second := rewrites.getElem?_add 2
  refine ⟨by simp [readDots, zeroth, first, second], ?_⟩
  exact rewrites.advance 2 (by simp)

end Turns

structure Written (m : List Char) (dst : Nat) (names : List (List Char)) : Prop where
  inside : dst < m.length
  areNames : ∀ name ∈ names, IsName name
  text : m.take dst = slashed.spell names ∨
    ∃ front name, names = front ++ [name] ∧ name ≠ [] ∧
      m.take dst = slashed.spell front ++ name

def Follows (left : Nat) (fullpath : List Char) (src dst : Nat) (path : List Char)
    (names : List (List Char)) : Prop :=
  match follow (slashed.moves path) names with
  | none => rewrite left fullpath src dst = some none
  | some last => ∃ m dst',
      rewrite left fullpath src dst = some (some (m, dst')) ∧ Written m dst' last

section MainLoop

variable {fullpath after : List Char} {src dst src' dst' left : Nat} {path path' : List Char}
  {names names' : List (List Char)}

theorem Follows.of_again (turned : turn fullpath src dst = some (.again after src' dst'))
    (same : follow (slashed.moves path) names = follow (slashed.moves path') names')
    (follows : Follows left after src' dst' path' names') :
    Follows (left + 1) fullpath src dst path names := by
  unfold Follows at follows ⊢
  rw [same]
  simpa only [rewrite, turned] using follows

theorem Follows.of_ended (turned : turn fullpath src dst = some (.ended after dst'))
    (ends : follow (slashed.moves path) names = some names') (written : Written after dst' names') :
    Follows (left + 1) fullpath src dst path names := by
  unfold Follows
  rw [ends]
  exact ⟨after, dst', by simp only [rewrite, turned], written⟩

theorem trimmed_length_le (path : List Char) : (trimmed path).length ≤ path.length :=
  (List.dropWhile_suffix _).length_le

theorem trimmed_head? (path : List Char) : (trimmed path).head? ≠ some '/' := by
  induction path with
  | nil => simp [trimmed]
  | cons c path ih =>
    by_cases isSlash : c = '/'
    · simpa [trimmed, isSlash] using ih
    · simp [trimmed, isSlash]

theorem follow_trimmed (path : List Char) (names : List (List Char)) :
    follow (slashed.moves (trimmed path)) names = follow (slashed.moves path) names :=
  slashed.follow_moves_dropWhile path names

theorem terminated_trimmed (terminated : '\x00' ∉ path) : '\x00' ∉ trimmed path :=
  fun inside => terminated ((List.dropWhile_sublist _).mem inside)

theorem Rewrites.dst_lt {written : List Char}
    (rewrites : Rewrites fullpath src dst written (path ++ ['\x00'])) : dst < fullpath.length := by
  have read := rewrites.getElem?_add path.length
  rw [List.getElem?_append_right (le_refl _), Nat.sub_self] at read
  have inside := (List.getElem?_eq_some_iff.mp read).1
  have behind := rewrites.behind
  omega

theorem IsName.forall_append {name : List Char} (isName : IsName name)
    (areNames : ∀ name ∈ names, IsName name) : ∀ u ∈ names ++ [name], IsName u := by
  intro u isOther
  rcases List.mem_append.mp isOther with before | new
  · exact areNames u before
  · exact List.mem_singleton.mp new ▸ isName

theorem Follows.of_upOne (isUp : readDots fullpath src = some (.upOne src'))
    (moves : ∀ names, follow (slashed.moves path) names = follow (.up :: slashed.moves path') names)
    (areNames : ∀ name ∈ names, IsName name)
    (rewrites : Rewrites fullpath src' dst (slashed.spell names) (trimmed path' ++ ['\x00']))
    (later : ∀ {dst' front}, (∀ name ∈ front, IsName name) →
      Rewrites fullpath src' dst' (slashed.spell front) (trimmed path' ++ ['\x00']) →
        Follows left fullpath src' dst' (trimmed path') front) :
    Follows (left + 1) fullpath src dst path names := by
  rcases turn_upOne isUp (fun name isName => (areNames name isName).separated) rewrites with
    ⟨rfl, turned⟩ | ⟨front, dst', ⟨name, rfl⟩, turned, frontRewrites⟩
  · unfold Follows
    rw [moves]
    simp only [follow, LexicalPath.Move.apply, if_true, Option.bind_none, rewrite, turned]
  · refine Follows.of_again turned ?_
      (later (fun u isOther => areNames u (List.mem_append_left _ isOther)) frontRewrites)
    rw [moves, follow_trimmed]
    simp [follow, LexicalPath.Move.apply]

theorem follows_last {name : List Char} (isName : IsName name)
    (areNames : ∀ name ∈ names, IsName name)
    (later : name ≠ [] → ∀ {src' dst' front}, (∀ name ∈ front, IsName name) →
      Rewrites fullpath src' dst' (slashed.spell front) ['\x00'] →
        Follows left fullpath src' dst' [] front)
    (rewrites : Rewrites fullpath src dst (slashed.spell names) (name ++ ['\x00'])) :
    Follows (left + 1) fullpath src dst name names := by
  have moves := slashed.moves_name isName.separated
  by_cases isDot : name = ['.']
  · subst isDot
    refine Follows.of_ended (turn_dot_end rewrites) (by rw [moves]; rfl) ?_
    exact ⟨rewrites.dst_lt, areNames, .inl rewrites.written⟩
  by_cases isDots : name = ['.', '.']
  · subst isDots
    obtain ⟨isUp, upRewrites⟩ := readDots_dots_end rewrites
    refine @Follows.of_upOne _ _ _ _ _ _ [] _ isUp (fun places => ?_) areNames upRewrites
      (later (by simp))
    rw [moves, slashed.moves_nil]
    cases places <;> rfl
  obtain ⟨after, dst', turned, inside, text⟩ := turn_name_end isName isDot isDots rewrites
  by_cases empty : name = []
  · subst empty
    refine Follows.of_ended turned (by rw [moves]; rfl) ⟨inside, areNames, .inl ?_⟩
    rw [text, List.append_nil]
  · have isDown := slashed.readMove_proper ⟨empty, isDot, isDots, isName.separated⟩
    refine Follows.of_ended turned (by rw [moves, isDown]; rfl)
      ⟨inside, isName.forall_append areNames, .inr ⟨names, name, rfl, empty, text⟩⟩

theorem follows_component {name rest : List Char} (isName : IsName name) (nonempty : name ≠ [])
    (terminated : '\x00' ∉ rest) (areNames : ∀ name ∈ names, IsName name)
    (later : ∀ {after src' dst' front}, (∀ name ∈ front, IsName name) →
      Rewrites after src' dst' (slashed.spell front) (trimmed rest ++ ['\x00']) →
        Follows left after src' dst' (trimmed rest) front)
    (rewrites : Rewrites fullpath src dst (slashed.spell names)
      (name ++ '/' :: (rest ++ ['\x00']))) :
    Follows (left + 1) fullpath src dst (name ++ '/' :: rest) names := by
  have moves := slashed.moves_name_separator isName.separated rest
  by_cases isDot : name = ['.']
  · subst isDot
    obtain ⟨src', turned, nextRewrites⟩ := turn_dot_slash terminated rewrites
    refine Follows.of_again turned ?_ (later areNames nextRewrites)
    rw [moves, follow_trimmed]
    rfl
  by_cases isDots : name = ['.', '.']
  · subst isDots
    obtain ⟨src', isUp, upRewrites⟩ := readDots_dots_slash terminated rewrites
    exact Follows.of_upOne isUp (fun places => by rw [moves]; rfl) areNames upRewrites later
  obtain ⟨after, src', dst', turned, nextRewrites⟩ :=
    turn_name_slash isName isDot isDots terminated rewrites
  have isDown := slashed.readMove_proper ⟨nonempty, isDot, isDots, isName.separated⟩
  refine Follows.of_again turned ?_ (later (isName.forall_append areNames) nextRewrites)
  rw [moves, follow_trimmed, isDown]
  rfl

theorem follows (enough : path.length < left) (terminated : '\x00' ∉ path)
    (noSlash : path.head? ≠ some '/') (areNames : ∀ name ∈ names, IsName name)
    (rewrites : Rewrites fullpath src dst (slashed.spell names) (path ++ ['\x00'])) :
    Follows left fullpath src dst path names := by
  induction left generalizing fullpath src dst path names with
  | zero => exact absurd enough (Nat.not_lt_zero _)
  | succ left ih =>
    obtain ⟨name, separated, ends⟩ := slashed.exists_component path
    rcases ends with rfl | ⟨rest, rfl⟩
    · refine follows_last ⟨separated, terminated⟩ areNames ?_ rewrites
      intro nonempty src' dst' front frontNames frontRewrites
      have pos := List.length_pos_of_ne_nil nonempty
      exact ih (by simp only [List.length_nil]; omega) (by simp) (by simp)
        frontNames frontRewrites
    · have nonempty : name ≠ [] := by
        rintro rfl
        exact noSlash rfl
      have restTerminated : '\x00' ∉ rest := fun inside =>
        terminated (List.mem_append_right _ (List.mem_cons_of_mem _ inside))
      rw [List.append_assoc, List.cons_append] at rewrites
      refine follows_component
        ⟨separated, fun inside => terminated (List.mem_append_left _ inside)⟩ nonempty
        restTerminated areNames ?_ rewrites
      intro after src' dst' front frontNames frontRewrites
      refine ih ?_ (terminated_trimmed restTerminated) (trimmed_head? rest)
        frontNames frontRewrites
      have shorter := trimmed_length_le rest
      simp only [List.length_append, List.length_cons] at enough
      omega

end MainLoop

section Finish

variable {m front : List Char} {c : Char} {dst : Nat}

theorem ofMemory_chars {text : List Char} (terminated : '\x00' ∉ text) (rest : List Char) :
    (CString.ofMemory (text ++ '\x00' :: rest)).chars = text := by
  have kept : ∀ c ∈ text, decide (c ≠ '\x00') = true := fun c inside =>
    decide_eq_true fun isNul => terminated (isNul ▸ inside)
  refine (List.takeWhile_append_of_pos kept).trans ?_
  simp

theorem exists_rest (inside : dst < m.length) (taken : m.take dst = front ++ [c]) :
    dst = front.length + 1 ∧ ∃ d rest, m = front ++ c :: d :: rest := by
  have length := congrArg List.length taken
  rw [List.length_take, Nat.min_eq_left (Nat.le_of_lt inside)] at length
  have split := List.take_append_drop dst m
  rw [List.drop_eq_getElem_cons inside, taken] at split
  refine ⟨by simpa using length, m[dst], m.drop (dst + 1), ?_⟩
  simpa using split.symm

theorem first_character {text : List Char} (nonempty : text ≠ []) (terminated : '\x00' ∉ text)
    (rest : List Char) : ∃ e, (text ++ rest)[0]? = some e ∧ e ≠ '\x00' := by
  obtain ⟨e, others, rfl⟩ := List.exists_cons_of_ne_nil nonempty
  exact ⟨e, rfl, fun isNul => terminated (isNul ▸ List.mem_cons_self ..)⟩

theorem finish_eq {fullpath stored closed : List Char} {e : Char}
    (ends : store fullpath (dst + 1) '\x00' = some stored) (closes : (stored[dst]?.bind fun c =>
      if dst ≠ 0 ∧ c = '/' then store stored dst '\x00' else some stored) = some closed)
    (first : closed[0]? = some e) (notNul : e ≠ '\x00') :
    finish fullpath (dst + 1) = some closed := by
  obtain ⟨c, isLast, closes⟩ := Option.bind_eq_some_iff.mp closes
  rw [finish, ends]
  simp only [Option.bind_eq_bind, Option.bind_some, isLast]
  split_ifs at closes ⊢
  · simp only [closes, Option.bind_some, first, notNul]
    rfl
  · cases closes
    simp only [first, Option.bind_some, notNul]
    rfl

theorem finish_keep (inside : dst < m.length) (taken : m.take dst = front ++ [c])
    (terminated : '\x00' ∉ front ++ [c]) (stays : front = [] ∨ c ≠ '/') :
    ∃ after, finish m dst = some after ∧ (CString.ofMemory after).chars = front ++ [c] := by
  obtain ⟨rfl, d, rest, rfl⟩ := exists_rest inside taken
  have keeps : ¬(¬front = [] ∧ c = '/') := by
    rintro ⟨pos, isSlash⟩
    exact stays.elim pos (· isSlash)
  obtain ⟨e, first, notNul⟩ := first_character (by simp) terminated ('\x00' :: rest)
  rw [List.append_assoc, List.singleton_append] at first
  have stored : store (front ++ c :: d :: rest) (front.length + 1) '\x00' =
      some (front ++ c :: '\x00' :: rest) := by simp [store]
  refine ⟨front ++ c :: '\x00' :: rest, finish_eq stored ?_ first notNul, ?_⟩
  · simp [keeps]
  · simpa using ofMemory_chars terminated rest

theorem finish_remove (inside : dst < m.length) (taken : m.take dst = front ++ ['/'])
    (terminated : '\x00' ∉ front) (nonempty : front ≠ []) :
    ∃ after, finish m dst = some after ∧ (CString.ofMemory after).chars = front := by
  obtain ⟨rfl, d, rest, rfl⟩ := exists_rest inside taken
  obtain ⟨e, a, notNul⟩ := first_character nonempty terminated ('\x00' :: '\x00' :: rest)
  have stored : store (front ++ '/' :: d :: rest) (front.length + 1) '\x00' =
      some (front ++ '/' :: '\x00' :: rest) := by simp [store]
  refine ⟨front ++ '\x00' :: '\x00' :: rest, finish_eq stored ?_ a notNul,
    ofMemory_chars terminated _⟩
  simp [store, nonempty]

theorem terminated_spell {names : List (List Char)} (areNames : ∀ name ∈ names, IsName name) :
    '\x00' ∉ slashed.spell names := by
  intro isNul
  obtain ⟨name, isName, inside⟩ := List.mem_flatMap.mp isNul
  rcases List.mem_append.mp inside with inName | isSlash
  · exact (areNames name isName).terminated inName
  · exact absurd (List.mem_singleton.mp isSlash) (by decide)

theorem render_append_eq (names : List (List Char)) (name : List Char) :
    slashed.render (names ++ [name]) = slashed.spell ([] :: names) ++ name :=
  slashed.render_append names name

theorem Written.finish {names : List (List Char)} (written : Written m dst ([] :: names)) :
    ∃ after, Dfs.finish m dst = some after ∧
      (CString.ofMemory after).chars = slashed.render names := by
  rcases List.eq_nil_or_concat' names with rfl | ⟨front, name, rfl⟩
  · rcases written.text with text | ⟨front, name, isLast, nonempty, -⟩
    · exact @finish_keep _ [] '/' _ written.inside text (by decide) (.inl rfl)
    · obtain ⟨-, isName⟩ := @List.append_inj' _ [] _ _ _ isLast rfl
      exact absurd (List.singleton_inj.mp isName).symm nonempty
  · have areNames : ∀ u ∈ [] :: front, IsName u := fun u isOther =>
      written.areNames u (List.mem_append_left [name] isOther)
    have isName : IsName name := written.areNames name (by simp)
    have terminated : '\x00' ∉ slashed.spell ([] :: front) ++ name := by
      rw [List.mem_append, not_or]
      exact ⟨terminated_spell areNames, isName.terminated⟩
    rw [render_append_eq]
    rcases written.text with text | ⟨before, last, isLast, nonempty, text⟩
    · rw [← List.cons_append, slashed.spell_append, ← List.append_assoc] at text
      exact finish_remove written.inside text terminated (by simp [LexicalPath.Format.spell])
    · obtain ⟨rfl, same⟩ := @List.append_inj' _ ([] :: front) _ _ _ isLast rfl
      obtain rfl := List.singleton_inj.mp same
      obtain ⟨shorter, c, rfl⟩ := (List.eq_nil_or_concat' name).resolve_left nonempty
      have notSlash : c ≠ '/' := fun isSlash => isName.separated (by simp [isSlash])
      rw [← List.append_assoc] at text terminated ⊢
      exact finish_keep written.inside text terminated (.inr notSlash)

end Finish

section Function

variable {workingDirectory : CString} {directory : Option CString} {filename : CString}

def Based (workingDirectory : CString) (directory : Option CString) (filename : CString) : Prop :=
  filename.chars.head? = some '/' ∨ slashed.Normalized (directory.getD workingDirectory).chars

def resolution (workingDirectory : CString) (directory : Option CString) (filename : CString) :
    Option (List (List Char)) :=
  follow (slashed.moves (joined workingDirectory directory filename)) []

/-- The function stays in its memory, returns `NULL` just for the paths that climb above the
root, and otherwise the normalised path to the same place, which it does not change. -/
structure Normalizes (workingDirectory : CString) (directory : Option CString)
    (filename : CString) : Prop where
  inMemory : (dfsNormalizePath true workingDirectory directory filename).isSome
  null_iff : dfsNormalizePath true workingDirectory directory filename = some none ↔
    resolution workingDirectory directory filename = none
  normalized : ∀ path, dfsNormalizePath true workingDirectory directory filename =
    some (some path) →
    ∃ names, resolution workingDirectory directory filename = some names ∧
      (∀ name ∈ names, slashed.Proper name) ∧ path.chars = slashed.render names
  fixed : ∀ path, dfsNormalizePath true workingDirectory directory filename = some (some path) →
    ∀ otherDirectory otherBase,
      dfsNormalizePath true otherDirectory otherBase path = some (some path)

variable {names : List (List Char)}

theorem resolution_eq {rest : List Char}
    (isJoined : joined workingDirectory directory filename = '/' :: rest) :
    resolution workingDirectory directory filename = follow (slashed.moves rest) [] := by
  unfold resolution
  rw [isJoined, slashed.moves_separator rest]
  rfl

section

variable (based : Based workingDirectory directory filename)

include based

theorem joined_eq :
    ∃ rest, joined workingDirectory directory filename = '/' :: rest ∧ '\x00' ∉ rest := by
  have terminated : '\x00' ∉ joined workingDirectory directory filename := by
    unfold joined
    split
    · have notNul := (directory.getD workingDirectory).terminated
      simp [notNul, filename.terminated]
    · exact filename.terminated
  have rooted : (joined workingDirectory directory filename).head? = some '/' := by
    unfold joined
    split
    · rename_i relative
      obtain ⟨names, -, isPath⟩ := based.resolve_left relative
      rw [isPath]
      rfl
    · next absolute => exact not_not.mp absolute
  obtain ⟨rest, split⟩ := List.head?_eq_some_iff.mp rooted
  rw [split] at terminated
  exact ⟨rest, split, fun inside => terminated (List.mem_cons_of_mem _ inside)⟩

theorem dfsNormalizePath_cases : ∃ rest, joined workingDirectory directory filename = '/' :: rest ∧
      match follow (slashed.moves rest) [[]] with
      | none => dfsNormalizePath true workingDirectory directory filename = some none
      | some last => ∃ m dst, Written m dst last ∧
          dfsNormalizePath true workingDirectory directory filename =
            (finish m dst).map fun after => some (CString.ofMemory after) := by
  obtain ⟨rest, isJoined, terminated⟩ := joined_eq based
  refine ⟨rest, isJoined, ?_⟩
  have rewrites : Rewrites ('/' :: (rest ++ ['\x00'])) 0 0 (slashed.spell [])
      ([] ++ '/' :: (rest ++ ['\x00'])) := ⟨le_refl 0, Nat.zero_le _, rfl, rfl⟩
  have isName : IsName [] := ⟨by simp, by simp⟩
  obtain ⟨after, src, dst, turned, nextRewrites⟩ :=
    turn_name_slash isName (by simp) (by simp) terminated rewrites
  have enough : (trimmed rest).length < rest.length + 2 :=
    Nat.lt_of_le_of_lt (trimmed_length_le rest) (by omega)
  have loop := follows enough (terminated_trimmed terminated)
    (trimmed_head? rest) (isName.forall_append (by simp)) nextRewrites
  have first : rewrite (rest.length + 3) ('/' :: (rest ++ ['\x00'])) 0 0 =
      rewrite (rest.length + 2) after src dst := by
    simp only [rewrite, turned]
  unfold Follows at loop
  rw [follow_trimmed, List.nil_append] at loop
  split
  · rename_i leaves
    rw [leaves] at loop
    simp [dfsNormalizePath, isJoined, first, loop]
  · rename_i last ends
    rw [ends] at loop
    obtain ⟨m, dst', isLast, written⟩ := loop
    refine ⟨m, dst', written, ?_⟩
    cases finished : finish m dst' <;>
      simp [dfsNormalizePath, isJoined, first, isLast, finished]

theorem dfsNormalizePath_of_resolution
    (resolved : resolution workingDirectory directory filename = some names) :
    ∃ path, dfsNormalizePath true workingDirectory directory filename = some (some path) ∧
      path.chars = slashed.render names := by
  obtain ⟨rest, isJoined, cases⟩ := dfsNormalizePath_cases based
  rw [resolution_eq isJoined] at resolved
  have beneath : follow (slashed.moves rest) [[]] = some ([[]] ++ names) :=
    LexicalPath.follow_beneath [[]] resolved
  rw [beneath] at cases
  obtain ⟨m, dst, written, norm⟩ := cases
  obtain ⟨after, finished, chars⟩ := written.finish
  exact ⟨CString.ofMemory after, by rw [norm, finished]; rfl, chars⟩

end

theorem dfsNormalizePath_fixed {path : CString} (proper : ∀ name ∈ names, slashed.Proper name)
    (chars : path.chars = slashed.render names) (workingDirectory : CString)
    (directory : Option CString) :
    dfsNormalizePath true workingDirectory directory path = some (some path) := by
  have rooted : path.chars.head? = some '/' := by
    rw [chars]
    rfl
  have resolved : resolution workingDirectory directory path = some names := by
    unfold resolution joined
    rw [if_neg (not_not.mpr rooted), chars, slashed.follow_render proper]
  obtain ⟨again, isAgain, same⟩ := dfsNormalizePath_of_resolution (.inl rooted) resolved
  rw [isAgain, CString.ext (same.trans chars.symm)]

/-- The paths are normalised just when they do not climb to one level above the root and no
further. -/
theorem normalizes_iff (workingDirectory : CString) (directory : Option CString)
    (filename : CString) (based : Based workingDirectory directory filename) :
    Normalizes workingDirectory directory filename ↔
      lowest (slashed.moves (joined workingDirectory directory filename)) ≠ -1 := by
  obtain ⟨rest, isJoined, cases⟩ := dfsNormalizePath_cases based
  have nonpos := LexicalPath.lowest_nonpos (slashed.moves rest)
  have lowest_eq : lowest (slashed.moves ('/' :: rest)) = lowest (slashed.moves rest) := by
    rw [slashed.moves_separator rest, lowest, LexicalPath.Move.change, Int.zero_add,
      min_eq_right nonpos]
  have leaves : resolution workingDirectory directory filename = none ↔
      lowest (slashed.moves rest) < 0 := by
    rw [resolution_eq isJoined, LexicalPath.follow_eq_none_iff]
    simp
  have leavesTwice : follow (slashed.moves rest) [[]] = none ↔
      1 + lowest (slashed.moves rest) < 0 := by
    rw [LexicalPath.follow_eq_none_iff]
    simp
  rw [isJoined, lowest_eq]
  constructor
  · intro normalizes one
    obtain ⟨last, ends⟩ : ∃ last, follow (slashed.moves rest) [[]] = some last :=
      Option.ne_none_iff_exists'.mp (by rw [Ne, leavesTwice]; omega)
    rw [ends] at cases
    obtain ⟨m, dst, -, outcome⟩ := cases
    have isNull := normalizes.null_iff.mpr (leaves.mpr (by omega))
    rw [outcome] at isNull
    cases finished : finish m dst with
    | none | some after => simp [finished] at isNull
  · intro notOne
    by_cases climbs : lowest (slashed.moves rest) < 0
    · rw [leavesTwice.mpr (by omega)] at cases
      exact
        { inMemory := by rw [cases]; rfl
          null_iff := ⟨fun _ => leaves.mpr climbs, fun _ => cases⟩
          normalized := fun path isPath => by simp [cases] at isPath
          fixed := fun path isPath => by simp [cases] at isPath }
    · obtain ⟨names, resolved⟩ :
          ∃ names, resolution workingDirectory directory filename = some names :=
        Option.ne_none_iff_exists'.mp (by rw [Ne, leaves]; exact climbs)
      have proper : ∀ name ∈ names, slashed.Proper name :=
        LexicalPath.Format.proper_of_follow resolved
      obtain ⟨path, outcome, chars⟩ := dfsNormalizePath_of_resolution based resolved
      have only : ∀ u, dfsNormalizePath true workingDirectory directory filename = some (some u) →
            u = path := fun u isOther => by simpa [outcome] using isOther.symm
      exact
        { inMemory := by rw [outcome]; rfl
          null_iff := by simp [outcome, resolved]
          normalized := fun u isOther => only u isOther ▸ ⟨names, resolved, proper, chars⟩
          fixed := fun u isOther => only u isOther ▸ dfsNormalizePath_fixed proper chars }

theorem climbing_back_normalizes : Normalizes ⟨['/'], by decide⟩ none
      ⟨['/', 'a', '/', 'b', '/', '.', '.', '/', 'c', '/', '.', '/'], by decide⟩ :=
  (normalizes_iff _ _ _ (.inl rfl)).mpr (by decide +kernel)

theorem above_root_not_normalizes :
    ¬ ∀ workingDirectory directory filename, Based workingDirectory directory filename →
      Normalizes workingDirectory directory filename := by
  intro claim
  have normalizes := claim ⟨['/'], by decide⟩ none ⟨['/', '.', '.', '/', 'a'], by decide⟩ (.inl rfl)
  have outcome : dfsNormalizePath true ⟨['/'], by decide⟩ none
      ⟨['/', '.', '.', '/', 'a'], by decide⟩ = some (some ⟨['a'], by decide⟩) := by decide +kernel
  obtain ⟨names, -, -, chars⟩ := normalizes.normalized _ outcome
  exact absurd (congrArg List.head? chars) (by simp [LexicalPath.Format.render])

end Function

end RtThread.Dfs
