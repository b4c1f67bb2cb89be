import RtThread.Vbus.Transfer

/-!
# The packets on one link

What has been posted is what has been pushed, what lies in the ring, and what the two threads and
the queue hold; a step of the out thread moves a packet from one of these places to the next.
-/

namespace RtThread.Vbus.Transfer

def Out.hand : Out → List Pkg
  | .popped pkg | .measuring pkg | .full pkg | .suspended pkg | .resumed pkg | .writing pkg
  | .advancing pkg => [pkg]
  | .idle | .ticking => []

def In.hand : In → List Pkg
  | .pushing pkg => [pkg]
  | _ => []

/-- What the out thread knows of the ring. -/
def Out.Sound (blkNr : Nat) (ring : Ring) (unread : List Pkg) : Out → Prop
  | .writing pkg => total unread + pkg.bnr < blkNr
  | .advancing pkg => total unread + pkg.bnr < blkNr ∧ Stored ring.blks blkNr ring.putIdx [pkg]
  | .suspended _ => ring.blocked = true
  | _ => True

/-- What the in thread knows of the first packet. -/
def In.Sound (lost : UInt8 → Bool) (unread : List Pkg) : In → Prop
  | .reading id size => ∃ pkg rest, unread = pkg :: rest ∧ pkg.id = id ∧ pkg.data.length = size
  | .dropping size => ∃ pkg rest, unread = pkg :: rest ∧ pkg.data.length = size ∧
      (pkg.id = 0 ∨ lost pkg.id = true)
  | .copied pkg => ∃ rest, unread = pkg :: rest
  | _ => True

variable {Tid : Type}

structure Link.Carries (blkNr : Nat) (link : Link Tid) (unread : List Pkg) : Prop where
  holds : link.ring.Holds blkNr unread
  sizes : ∀ pkg ∈ link.out.hand ++ link.queue, pkg.data.length ≤ maxPktSz
  out : link.out.Sound blkNr link.ring unread
  inn : link.inn.Sound link.lost unread
  flow : ∀ chnr prio, chnr ≠ 0 → link.lost chnr = false →
    packets chnr prio link.posted = packets chnr prio link.pushed ++
      (packets chnr prio link.inn.hand ++ (packets chnr prio unread ++
        (packets chnr prio link.out.hand ++ packets chnr prio link.queue)))

@[simp] theorem packets_nil (chnr prio : UInt8) : packets chnr prio [] = [] := rfl

@[simp] theorem packets_append (chnr prio : UInt8) (pkgs more : List Pkg) :
    packets chnr prio (pkgs ++ more) = packets chnr prio pkgs ++ packets chnr prio more :=
  List.filter_append ..

theorem packets_cons (chnr prio : UInt8) (pkg : Pkg) (pkgs : List Pkg) :
    packets chnr prio (pkg :: pkgs) = packets chnr prio [pkg] ++ packets chnr prio pkgs :=
  packets_append chnr prio [pkg] pkgs

variable {chnr prio : UInt8}

theorem packets_other {pkg : Pkg} (other : pkg.id ≠ chnr) : packets chnr prio [pkg] = [] := by
  simp [packets, other]

theorem packets_popPkg {queue rest : List Pkg} {pkg : Pkg}
    (popped : popPkg queue = some (pkg, rest)) (chnr prio : UInt8) :
    packets chnr prio queue = packets chnr prio [pkg] ++ packets chnr prio rest := by
  obtain ⟨a, _, popped⟩ := Option.bind_eq_some_iff.mp popped
  obtain ⟨found, isFound, equal⟩ := Option.map_eq_some_iff.mp popped
  obtain ⟨rfl, rfl⟩ := Prod.mk.inj equal
  obtain ⟨isFirst, front, back, rfl, others⟩ := List.find?_eq_some_iff_append.mp isFound
  have erased : (front ++ found :: back).eraseP (fun pkg => pkg.prio.toNat = a) =
      front ++ back := by
    rw [List.eraseP_append_right _ (by simpa using others), List.eraseP_cons]
    simp only [isFirst, cond_true]
  rw [erased, packets_append, packets_append, packets_cons]
  by_cases same : packets chnr prio front = []
  · rw [same, List.nil_append, List.nil_append]
  · have earlier : found.prio ≠ prio := by
      rintro rfl
      obtain ⟨pkg, isPkg⟩ := List.exists_mem_of_ne_nil _ same
      obtain ⟨inFront, matched⟩ := List.mem_filter.mp isPkg
      have notFirst := others pkg inFront
      simp only [Bool.and_eq_true, decide_eq_true_eq] at matched isFirst
      simp [matched.2, isFirst] at notFirst
    have none : packets chnr prio [found] = [] := by simp [packets, earlier]
    rw [none, List.nil_append, List.nil_append]

theorem mem_of_popPkg {queue rest : List Pkg} {pkg : Pkg}
    (popped : popPkg queue = some (pkg, rest)) : pkg ∈ queue ∧ ∀ u ∈ rest, u ∈ queue := by
  obtain ⟨a, _, popped⟩ := Option.bind_eq_some_iff.mp popped
  obtain ⟨found, isFound, equal⟩ := Option.map_eq_some_iff.mp popped
  obtain ⟨rfl, rfl⟩ := Prod.mk.inj equal
  exact ⟨List.mem_of_find?_eq_some isFound, fun _ => List.mem_of_mem_eraseP⟩

variable {lost : UInt8 → Bool}

theorem In.Sound.append {inn : In} {unread : List Pkg} (inv : inn.Sound lost unread)
    (more : List Pkg) : inn.Sound lost (unread ++ more) := by
  cases inn with
  | reading id n | dropping n =>
    obtain ⟨pkg, rest, rfl, known⟩ := inv
    exact ⟨pkg, rest ++ more, rfl, known⟩
  | copied pkg =>
    obtain ⟨rest, rfl⟩ := inv
    exact ⟨rest ++ more, rfl⟩
  | waiting | checking | pushing pkg | testing => trivial

theorem In.Sound.lose {inn : In} {unread : List Pkg} (inv : inn.Sound lost unread) (chnr : UInt8) :
    inn.Sound (Function.update lost chnr true) unread := by
  cases inn with
  | dropping n =>
    obtain ⟨pkg, rest, isFirst, length, goes⟩ := inv
    refine ⟨pkg, rest, isFirst, length, goes.imp_right fun isLost => ?_⟩
    by_cases same : pkg.id = chnr
    · rw [same, Function.update_self]
    · rwa [Function.update_of_ne same]
  | waiting | checking | reading id n | copied pkg | pushing pkg | testing => exact inv

theorem not_lost {chnr u : UInt8} (kept : Function.update lost u true chnr = false) :
    lost chnr = false ∧ u ≠ chnr := by
  by_cases same : chnr = u
  · subst same
    simp at kept
  · rw [Function.update_of_ne same] at kept
    exact ⟨kept, Ne.symm same⟩

section

variable {blkNr : Nat} {link after : Link Tid} {unread : List Pkg} {pkg : Pkg}

section

variable (carries : link.Carries blkNr unread)

include carries

theorem Link.Carries.setOut {out : Out} {blocked : Bool} (hand : out.hand = link.out.hand)
    (inv : out.Sound blkNr { link.ring with blocked } unread) :
    Link.Carries blkNr { link with ring := { link.ring with blocked }, out } unread where
  holds := ⟨carries.holds.get_lt, carries.holds.put_eq, carries.holds.fits, carries.holds.stored⟩
  sizes := by
    rw [hand]
    exact carries.sizes
  out := inv
  inn := carries.inn
  flow chnr prio channel kept := by
    rw [hand]
    exact carries.flow chnr prio channel kept

theorem Link.Carries.dropOut (hand : link.out.hand = [pkg]) :
    Link.Carries blkNr { link.lose pkg.id with out := .idle } unread where
  holds := carries.holds
  sizes other isOther := carries.sizes other (List.mem_append_right _ isOther)
  out := trivial
  inn := carries.inn.lose pkg.id
  flow chnr prio channel kept := by
    obtain ⟨kept, other⟩ := not_lost kept
    have flow := carries.flow chnr prio channel kept
    rwa [hand, packets_other other] at flow

theorem Link.Carries.write (place : link.out = .writing pkg) :
    Link.Carries blkNr { link with ring := link.ring.write blkNr pkg, out := .advancing pkg }
      unread := by
  have fits : total unread + pkg.bnr < blkNr := by
    have inv := carries.out
    rwa [place] at inv
  have hand : link.out.hand = [pkg] := by rw [place]; rfl
  have size := carries.sizes pkg (by simp [hand])
  obtain ⟨holds, stored⟩ := carries.holds.write fits size
  refine ⟨holds, ?_, ⟨fits, stored⟩, carries.inn, fun chnr prio channel kept => ?_⟩
  · have sizes := carries.sizes
    rwa [hand] at sizes
  · have flow := carries.flow chnr prio channel kept
    rwa [hand] at flow

theorem Link.Carries.advance (place : link.out = .advancing pkg) :
    Link.Carries blkNr { link with ring := link.ring.addPutBnr blkNr pkg.bnr, out := .ticking }
      (unread ++ [pkg]) := by
  obtain ⟨fits, stored⟩ : total unread + pkg.bnr < blkNr ∧
      Stored link.ring.blks blkNr link.ring.putIdx [pkg] := by
    have inv := carries.out
    rwa [place] at inv
  have hand : link.out.hand = [pkg] := by rw [place]; rfl
  refine ⟨carries.holds.addPutBnr fits stored, fun u isOther => ?_, trivial,
    carries.inn.append _, fun chnr prio channel kept => ?_⟩
  · exact carries.sizes u (List.mem_append_right _ isOther)
  · have flow := carries.flow chnr prio channel kept
    rw [hand] at flow
    rwa [packets_append, List.append_assoc]

theorem Link.Carries.outStep {status : UInt8 → ChnStatus}
    (step : link.outStep blkNr status = some after) : ∃ now, after.Carries blkNr now := by
  unfold Link.outStep at step
  cases place : link.out with
  | idle | suspended pkg => simp [place] at step
  | popped pkg =>
    simp only [place] at step
    cases step
    split_ifs with connected
    · exact ⟨unread, carries.setOut (by rw [place]; rfl) trivial⟩
    · exact ⟨unread, carries.dropOut (by rw [place]; rfl)⟩
  | measuring pkg =>
    simp only [place] at step
    cases step
    refine ⟨unread, carries.setOut (by split_ifs <;> rw [place] <;> rfl) ?_⟩
    split_ifs with short
    · trivial
    · have space := carries.holds.spaceNr_eq
      simp only [Out.Sound]
      omega
  | full pkg =>
    simp only [place] at step
    cases step
    exact ⟨unread, carries.setOut (by rw [place]; rfl) rfl⟩
  | resumed pkg | ticking =>
    simp only [place] at step
    cases step
    exact ⟨unread, carries.setOut (by rw [place]; rfl) trivial⟩
  | writing pkg =>
    simp only [place] at step
    cases step
    exact ⟨unread, carries.write place⟩
  | advancing pkg =>
    simp only [place] at step
    cases step
    exact ⟨unread ++ [pkg], carries.advance place⟩

theorem Link.Carries.transfer (channel : chnr ≠ 0) (kept : link.lost chnr = false) :
    packets chnr prio link.pushed <+: packets chnr prio link.posted :=
  ⟨_, (carries.flow chnr prio channel kept).symm⟩

theorem Link.Carries.complete (channel : chnr ≠ 0) (kept : link.lost chnr = false)
    (quiescent : link.Quiescent) :
    packets chnr prio link.pushed = packets chnr prio link.posted := by
  obtain ⟨queue, out, empty, inn⟩ := quiescent
  have flow := carries.flow chnr prio channel kept
  obtain rfl := carries.holds.get_eq_put_iff.mp empty
  rw [queue, out, inn] at flow
  simpa [Out.hand, In.hand] using flow.symm

end

end

variable {Tid : Type} {blkNr : Nat} {link after : Link Tid} {unread : List Pkg} {pkg : Pkg}

theorem Link.Carries.setIn (carries : link.Carries blkNr unread) {inn : In} {sem : Nat}
    (hand : inn.hand = link.inn.hand) (inv : inn.Sound link.lost unread) :
    Link.Carries blkNr { link with inn, sem } unread where
  holds := carries.holds
  sizes := carries.sizes
  out := carries.out
  inn := inv
  flow chnr prio channel kept := by
    rw [hand]
    exact carries.flow chnr prio channel kept

theorem Out.Sound.tail {out : Out} {ring : Ring} (inv : out.Sound blkNr ring (pkg :: unread))
    (bnr : Nat) : out.Sound blkNr (ring.addGetBnr blkNr bnr) unread := by
  have less : total unread ≤ total (pkg :: unread) := by
    rw [total_cons]
    omega
  cases out with
  | writing u => exact Nat.lt_of_le_of_lt (Nat.add_le_add_right less _) inv
  | advancing u =>
    exact ⟨Nat.lt_of_le_of_lt (Nat.add_le_add_right less _) inv.1, inv.2⟩
  | suspended u => exact inv
  | idle | popped u | measuring u | full u | resumed u | ticking => trivial

theorem Link.Carries.push (carries : link.Carries blkNr unread) (hand : link.inn.hand = [pkg]) :
    Link.Carries blkNr { link with pushed := link.pushed ++ [pkg], inn := .testing } unread where
  holds := carries.holds
  sizes := carries.sizes
  out := carries.out
  inn := trivial
  flow chnr prio channel kept := by
    have flow := carries.flow chnr prio channel kept
    rw [hand] at flow
    rwa [packets_append, List.append_assoc]

section

variable (carries : link.Carries blkNr (pkg :: unread))

include carries

theorem Link.Carries.dropIn (empty : link.inn.hand = [])
    (goes : pkg.id = 0 ∨ link.lost pkg.id = true) :
    Link.Carries blkNr { link with ring := link.ring.addGetBnr blkNr pkg.bnr, inn := .checking }
      unread where
  holds := carries.holds.addGetBnr
  sizes := carries.sizes
  out := carries.out.tail _
  inn := trivial
  flow chnr prio channel kept := by
    have other : pkg.id ≠ chnr := by
      rintro rfl
      rcases goes with zero | isLost
      · exact channel zero
      · exact absurd (isLost.symm.trans kept) (by decide)
    have flow := carries.flow chnr prio channel kept
    rwa [empty, packets_cons, packets_other other] at flow

theorem Link.Carries.take (empty : link.inn.hand = []) :
    Link.Carries blkNr { link with ring := link.ring.addGetBnr blkNr pkg.bnr, inn := .pushing pkg }
      unread where
  holds := carries.holds.addGetBnr
  sizes := carries.sizes
  out := carries.out.tail _
  inn := trivial
  flow chnr prio channel kept := by
    have flow := carries.flow chnr prio channel kept
    rwa [empty, packets_cons, packets_nil, List.nil_append, List.append_assoc] at flow

theorem Link.Carries.passBy (empty : link.inn.hand = []) :
    Link.Carries blkNr { link.lose pkg.id with inn := .dropping pkg.data.length }
      (pkg :: unread) where
  holds := carries.holds
  sizes := carries.sizes
  out := carries.out
  inn := ⟨pkg, unread, rfl, rfl, .inr (Function.update_self ..)⟩
  flow chnr prio channel kept := by
    have flow := carries.flow chnr prio channel (not_lost kept).1
    rwa [empty] at flow

end

section

variable (carries : link.Carries blkNr unread)

include carries

theorem Link.Carries.innStep {status : UInt8 → ChnStatus}
    (step : link.innStep blkNr status = some after) : ∃ now, after.Carries blkNr now := by
  have inv := carries.inn
  unfold Link.innStep at step
  cases place : link.inn with
  | waiting =>
    simp only [place] at step
    split_ifs at step
    cases step
    exact ⟨unread, carries.setIn (by rw [place]; rfl) trivial⟩
  | checking =>
    simp only [place] at step
    cases step
    refine ⟨unread, carries.setIn (by split_ifs <;> rw [place] <;> rfl) ?_⟩
    split_ifs with empty
    · trivial
    · cases unread with
      | nil => exact absurd (carries.holds.get_eq_put_iff.mpr rfl) empty
      | cons pkg rest =>
        obtain ⟨id, _, len⟩ := carries.holds.head
        exact ⟨pkg, rest, rfl, id.symm, len.symm⟩
  | reading id n =>
    rw [place] at inv
    obtain ⟨pkg, rest, rfl, rfl, rfl⟩ := inv
    simp only [place] at step
    cases step
    have empty : link.inn.hand = [] := by rw [place]; rfl
    split_ifs with closed zero
    · exact ⟨_, carries.passBy empty⟩
    · exact ⟨_, carries.setIn (by rw [place]; rfl) ⟨pkg, rest, rfl, rfl, .inl zero⟩⟩
    · have copied : (⟨pkg.id, link.ring.headQos, link.ring.read blkNr pkg.data.length⟩ : Pkg) =
          pkg := by
        rw [carries.holds.head.2.1, carries.holds.read]
      rw [copied]
      exact ⟨_, carries.setIn (by rw [place]; rfl) ⟨rest, rfl⟩⟩
  | dropping n =>
    rw [place] at inv
    obtain ⟨pkg, rest, rfl, rfl, goes⟩ := inv
    simp only [place] at step
    cases step
    exact ⟨rest, carries.dropIn (by rw [place]; rfl) goes⟩
  | copied pkg =>
    rw [place] at inv
    obtain ⟨rest, rfl⟩ := inv
    simp only [place] at step
    cases step
    exact ⟨rest, carries.take (by rw [place]; rfl)⟩
  | pushing pkg =>
    simp only [place] at step
    cases step
    exact ⟨unread, carries.push (by rw [place]; rfl)⟩
  | testing =>
    simp only [place] at step
    cases step
    exact ⟨unread, carries.setIn (by rw [place]; rfl) trivial⟩

theorem Link.Carries.pop (step : link.pop = some after) : after.Carries blkNr unread := by
  unfold Link.pop at step
  split_ifs at step with idle
  obtain ⟨⟨pkg, rest⟩, popped, rfl⟩ := Option.map_eq_some_iff.mp step
  obtain ⟨isPopped, others⟩ := mem_of_popPkg popped
  have empty : link.out.hand = [] := by rw [idle]; rfl
  refine ⟨carries.holds, fun u isOther => ?_, trivial, carries.inn,
    fun chnr prio channel kept => ?_⟩
  · rcases List.mem_cons.mp isOther with rfl | isOther
    · exact carries.sizes _ (List.mem_append_right _ isPopped)
    · exact carries.sizes u (List.mem_append_right _ (others u isOther))
  · have flow := carries.flow chnr prio channel kept
    rwa [empty, packets_nil, List.nil_append, packets_popPkg popped] at flow

theorem Link.Carries.resumeOut : link.resumeOut.Carries blkNr unread := by
  unfold Link.resumeOut
  cases place : link.out with
  | suspended pkg =>
    split_ifs
    · exact carries.setOut (by rw [place]; rfl) trivial
    · exact carries
  | _ => exact carries

end

theorem Link.resumeOut_same :
    link.resumeOut.ring = link.ring ∧ link.resumeOut.lost = link.lost := by
  unfold Link.resumeOut
  split
  · split_ifs <;> exact ⟨rfl, rfl⟩
  · exact ⟨rfl, rfl⟩

theorem Link.Carries.setSem (carries : link.Carries blkNr unread) (sem : Nat) :
    Link.Carries blkNr { link with sem } unread :=
  ⟨carries.holds, carries.sizes, carries.out, carries.inn, carries.flow⟩

theorem Link.Carries.resumeOut_ne (carries : link.Carries blkNr unread) (pkg : Pkg) :
    link.resumeOut.out ≠ .suspended pkg := by
  have inv := carries.out
  unfold Link.resumeOut
  cases place : link.out with
  | suspended u =>
    rw [place] at inv
    simp only [if_pos (show link.ring.blocked = true from inv)]
    exact fun same => by simp at same
  | _ => simp [place]

variable [DecidableEq Tid] {t : Tid}

theorem Link.Carries.setCall (carries : link.Carries blkNr unread) (call : Option Post) :
    (link.setCall t call).Carries blkNr unread :=
  ⟨carries.holds, carries.sizes, carries.out, carries.inn, carries.flow⟩

theorem Link.Carries.post (carries : link.Carries blkNr unread) (status : UInt8 → ChnStatus)
    (id prio : UInt8) (data : List UInt8) :
    (link.post status t id prio data).Carries blkNr unread := by
  unfold Link.post
  split_ifs
  · exact carries
  · exact carries.setCall _

theorem Link.post_same (link : Link Tid) (t : Tid) (status : UInt8 → ChnStatus) (id prio : UInt8)
    (data : List UInt8) : (link.post status t id prio data).out = link.out ∧
      (link.post status t id prio data).ring = link.ring ∧
      (link.post status t id prio data).inn = link.inn ∧
      (link.post status t id prio data).lost = link.lost := by
  unfold Link.post
  split_ifs <;> exact ⟨rfl, rfl, rfl, rfl⟩

theorem Link.push_eq (step : link.push blkNr t = some after) :
    ∃ (call : Post) (pkg : Pkg) (rest : Option Post), link.call t = some call ∧
      pkg.id = call.id ∧ pkg.prio = call.prio ∧ pkg.data.length ≤ maxPktSz ∧
      pkg.data ++ rest.elim [] Post.data = call.data ∧ after = Link.setCall
        { link with queue := link.queue ++ [pkg], posted := link.posted ++ [pkg] } t rest := by
  obtain ⟨call, p, step⟩ := Option.bind_eq_some_iff.mp step
  dsimp only at step
  have size : (call.data.take maxPktSz).length ≤ maxPktSz := by
    rw [List.length_take]
    exact Nat.min_le_left _ _
  have all := List.take_append_drop maxPktSz call.data
  split_ifs at step with room last
  · cases step
    rw [last] at all
    exact ⟨call, _, none, p, rfl, rfl, size, all, rfl⟩
  · cases step
    exact ⟨call, _, _, p, rfl, rfl, size, all, rfl⟩

theorem Link.Carries.pushPost (carries : link.Carries blkNr unread)
    (step : link.push blkNr t = some after) : after.Carries blkNr unread := by
  obtain ⟨call, pkg, rest, _, _, _, n, _, rfl⟩ := Link.push_eq step
  have pushed : Link.Carries blkNr
      { link with queue := link.queue ++ [pkg], posted := link.posted ++ [pkg] } unread := by
    refine ⟨carries.holds, fun u isOther => ?_, carries.out, carries.inn,
      fun chnr prio channel kept => ?_⟩
    · rw [← List.append_assoc] at isOther
      rcases List.mem_append.mp isOther with isOther | isNew
      · exact carries.sizes u isOther
      · rwa [List.mem_singleton.mp isNew]
    · have flow := carries.flow chnr prio channel kept
      simp only [packets_append, flow, List.append_assoc]
  exact pushed.setCall rest

end RtThread.Vbus.Transfer
