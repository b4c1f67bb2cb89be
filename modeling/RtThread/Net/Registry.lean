import RtThread.Net.Netdev

/-!
# The registered network interfaces

`Exact` says that the list runs through exactly the registered devices, in the order of their
registration, and that the default device is one of them.  A run keeps this, and answers each
call as it should, as long as each step meets `Meets`: no device is removed while any is
registered, names fit their array and are followed by a terminator, and no lookup meets a
device whose name is a proper prefix of the one it looks for.
-/

open TransitionSystem

namespace RtThread.NetdevList

open List (mem_singleton length_cons mem_filter mem_append mem_of_mem_filter mem_cons_self)

variable {Device : Type} [DecidableEq Device]

inductive Returned (Device : Type) where
  | done
  | unregistered (result : RtErr)
  | found (device : Option Device)

/-- The registry, the devices that are registered under their names in the order of
registration, and what the last call has returned. -/
structure State (Device : Type) where
  registry : Registry Device
  registered : List (Device × Name)
  returned : Returned Device

def State.devices (s : State Device) : List Device := s.registered.map Prod.fst

inductive Event (Device : Type) where
  | register (netdev : Device) (name : Name) (userData : Option Nat)
  | unregister (netdev : Device)
  | getByName (name : Name)
  | setDefault (netdev : Option Device)

/-- One call whose loops take at most `fuel` iterations. -/
def stepWithin (fuel : Nat) (s : State Device) : Event Device → Option (State Device)
  | .register netdev name userData =>
    (netdevRegister fuel s.registry netdev name userData).map fun registry =>
      { registry := registry
        registered := s.registered.filter (·.1 ≠ netdev) ++ [(netdev, name)]
        returned := .done }
  | .unregister netdev =>
    (netdevUnregister fuel s.registry netdev).map fun (registry, result) =>
      { registry := registry
        registered := s.registered.filter (·.1 ≠ netdev)
        returned := .unregistered result }
  | .getByName name =>
    (netdevGetByName fuel s.registry name).map fun device =>
      { s with returned := .found device }
  | .setDefault netdev =>
    some { s with registry := netdevSetDefault s.registry netdev, returned := .done }

structure Initial (s : State Device) : Prop where
  empty : s.registry.netdevList = none
  noDefault : s.registry.netdevDefault = none
  none : s.registered = []
  sized : ∀ device, (s.registry.netdevs device).name.length = rtNameMax

def system : TransitionSystem (State Device) (Event Device) where
  initial := Initial
  step s event after := ∃ bound, ∀ fuel ≥ bound, stepWithin fuel s event = some after

/-- The list contains exactly the registered devices, each once and in the order of
registration, and the default device is registered. -/
structure Exact (s : State Device) : Prop where
  list : Chain (fun device => (s.registry.netdevs device).next) s.registry.netdevList
    s.devices
  once : s.devices.Nodup
  default : ∀ device ∈ s.registry.netdevDefault, device ∈ s.devices

def Correct (step : Taken (State Device) (Event Device)) : Prop :=
  match step.event with
  | .unregister netdev =>
    step.after.returned = .unregistered (if netdev ∈ step.before.devices then .eok else .error) ∧
      ∀ u ≠ netdev, step.after.registry.netdevs u = step.before.registry.netdevs u
  | .getByName name =>
    ∃ found, step.after.returned = .found found ∧
      ∀ device, found = some device ↔ (device, name) ∈ step.before.registered
  | _ => True

def Meets (s : State Device) : Event Device → Prop
  | .register netdev name _ =>
    (netdev ∈ s.devices → s.devices.getLast? = some netdev) ∧
      (∀ entry ∈ s.registered, entry.2 = name → entry.1 = netdev) ∧
      name.1.length < rtNameMax ∧
      (s.registry.netdevs netdev).name[name.1.length]? = some 0
  | .unregister netdev =>
    netdev ∉ s.devices ∧
      ∀ device ∈ s.devices, s.registry.netdevs device = s.registry.netdevs netdev
  | .getByName name =>
    ∀ entry ∈ s.registered.find? (·.2.1.isPrefixOf name.1), entry.2 = name
  | .setDefault netdev => ∀ device ∈ netdev, device ∈ s.devices

instance (s : State Device) : (event : Event Device) → Decidable (Meets s event)
  | .register .. => instDecidableAnd
  | .unregister _ => instDecidableAnd
  | .getByName _ => Option.decidableForallMem _
  | .setDefault _ => Option.decidableForallMem _

variable {fuel : Nat} {netdev : Device} {name : Name}

section Walks

variable {netdevs : Device → Netdev Device} {start : Option Device} {nodes : List Device}

omit [DecidableEq Device] in
theorem lastFrom_chain {n last : Device} {rest : List Device}
    (chain : Chain (fun device => (netdevs device).next) (some n) (n :: rest))
    (isLast : (n :: rest).getLast? = some last) (enough : rest.length < fuel) :
    lastFrom netdevs fuel n = some last := by
  induction rest generalizing n fuel with
  | nil =>
    obtain ⟨fuel, rfl⟩ := Nat.exists_eq_add_of_lt enough
    obtain rfl : n = last := by simpa using isLast
    have isNull : (netdevs n).next = none := chain.2
    rw [show [].length + fuel + 1 = fuel + 1 by simp, lastFrom, isNull]
  | cons second more ih =>
    obtain ⟨fuel, rfl⟩ := Nat.exists_eq_add_of_lt enough
    have following : (netdevs n).next = some second := chain.2.1
    rw [lastFrom, following]
    refine ih (following ▸ chain.2) (by simpa using isLast) ?_
    simp only [length_cons]
    omega

theorem unregisterFrom_equal {a : Device}
    (chain : Chain (fun device => (netdevs device).next) start nodes)
    (equal : ∀ device ∈ nodes, netdevs device = netdevs netdev) (enough : nodes.length ≤ fuel) :
    unregisterFrom a netdev fuel netdevs start = some (netdevs, .error) := by
  induction nodes generalizing start fuel with
  | nil =>
    obtain rfl : start = none := chain
    cases fuel <;> rfl
  | cons node rest ih =>
    obtain ⟨rfl, chain⟩ := chain
    obtain ⟨fuel, rfl⟩ : ∃ more, fuel = more + 1 := ⟨fuel - 1, by
      simp only [length_cons] at enough
      omega⟩
    have unchanged : Function.update netdevs node (netdevs netdev) = netdevs := by
      rw [← equal node mem_cons_self, Function.update_eq_self]
    simp only [unregisterFrom, rtMemcpy, unchanged]
    refine ih chain
      (fun device mem => equal device (List.mem_cons_of_mem _ mem)) ?_
    simpa using enough

end Walks

theorem rtStrncmp_eq_zero_iff {stored name : List UInt8} (nonzero : (0 : UInt8) ∉ stored)
    (rest : List UInt8) : rtStrncmp (stored ++ rest) name stored.length = 0 ↔ stored <+: name := by
  induction stored generalizing name with
  | nil => simp [rtStrncmp]
  | cons char stored ih =>
    have isChar : char ≠ 0 := fun isZero => nonzero (by simp [isZero])
    have nonzero : (0 : UInt8) ∉ stored := fun inStored => nonzero (List.mem_cons_of_mem _ inStored)
    cases name with
    | nil => simp [rtStrncmp, isChar]
    | cons u name =>
      by_cases same : char = u
      · subst same
        simpa [rtStrncmp, isChar] using ih nonzero
      · have ne : char - u ≠ 0 := by
          intro zero
          exact same (by simpa using UInt8.sub_eq_iff_eq_add.mp zero)
        simp [rtStrncmp, ne, same]

variable {s after : State Device}

structure Invariant (s : State Device) : Prop where
  exact : Exact s
  named : ∀ entry ∈ s.registered, ∃ rest, (s.registry.netdevs entry.1).name = entry.2.1 ++ 0 :: rest
  distinct : ∀ first ∈ s.registered, ∀ second ∈ s.registered,
    first.2 = second.2 → first.1 = second.1
  sized : ∀ device, (s.registry.netdevs device).name.length = rtNameMax

section

omit [DecidableEq Device]

theorem initial_invariant (init : Initial s) : Invariant s := by
  have devices : s.devices = [] := by simp [State.devices, init.none]
  refine ⟨⟨?_, ?_, ?_⟩, ?_, ?_, init.sized⟩
  · rw [devices]
    exact init.empty
  · simp [devices]
  · simp [init.noDefault]
  · simp [init.none]
  · simp [init.none]

theorem mem_devices {device : Device} :
    device ∈ s.devices ↔ ∃ name, (device, name) ∈ s.registered := by
  simp [State.devices]

theorem findByName_chain {netdevs : Device → Netdev Device} {start : Option Device}
    {registered : List (Device × Name)} {name : List UInt8}
    (chain : Chain (fun device => (netdevs device).next) start (registered.map Prod.fst))
    (named : ∀ e ∈ registered, ∃ rest, (netdevs e.1).name = e.2.1 ++ 0 :: rest)
    (enough : registered.length ≤ fuel) : findByName netdevs name fuel start =
      some ((registered.find? (·.2.1.isPrefixOf name)).map Prod.fst) := by
  induction registered generalizing start fuel with
  | nil =>
    obtain rfl : start = none := chain
    cases fuel <;> rfl
  | cons e registered ih =>
    obtain ⟨rfl, chain⟩ := chain
    obtain ⟨fuel, rfl⟩ : ∃ more, fuel = more + 1 := ⟨fuel - 1, by
      simp only [length_cons] at enough
      omega⟩
    obtain ⟨rest, stored⟩ := named e mem_cons_self
    have nonzero := e.2.2
    have length : TextBuffer.strlen? (netdevs e.1).name = some e.2.1.length := by
      simp [TextBuffer.strlen?, stored, TextBuffer.textOf_terminated nonzero]
    have begins : rtStrncmp (netdevs e.1).name name e.2.1.length = 0 ↔
        e.2.1 <+: name := by
      rw [stored]
      exact rtStrncmp_eq_zero_iff nonzero (0 :: rest)
    simp only [findByName_succ _ _ _ _ length, begins]
    by_cases isPrefix : e.2.1 <+: name
    · simp [isPrefix]
    · simp only [isPrefix, List.isPrefixOf_iff_prefix, not_false_eq_true,
        List.find?_cons_of_neg]
      refine ih chain
        (fun u mem => named u (List.mem_cons_of_mem _ mem)) ?_
      simpa using enough

end

theorem setNext_next (netdevs : Device → Netdev Device) (n : Device)
    (next : Option Device) : (fun device => (setNext netdevs n next device).next) =
      Function.update (fun device => (netdevs device).next) n next := by
  funext device
  by_cases same : device = n
  · subst same
    simp [setNext]
  · simp [setNext, same]

@[simp] theorem setNext_name (netdevs : Device → Netdev Device) (n device : Device)
    (next : Option Device) : (setNext netdevs n next device).name = (netdevs device).name := by
  by_cases same : device = n
  · subst same
    simp [setNext]
  · simp [setNext, same]

theorem overwrite_name {array : List UInt8} (fits : name.1.length < rtNameMax)
    (sized : array.length = rtNameMax) (zero : array[name.1.length]? = some 0) :
    ∃ rest, TextBuffer.overwrite? array 0 name.1 = some (name.1 ++ 0 :: rest) ∧
      (name.1 ++ 0 :: rest).length = rtNameMax := by
  obtain ⟨inside, isZero⟩ := List.getElem?_eq_some_iff.mp zero
  have split : array.drop name.1.length = 0 :: array.drop (name.1.length + 1) := by
    rw [List.drop_eq_getElem_cons inside, isZero]
  refine ⟨array.drop (name.1.length + 1), ?_, ?_⟩
  · rw [TextBuffer.overwrite?, if_pos (by omega)]
    simp [split]
  · simp only [List.length_append, length_cons, List.length_drop]
    omega

theorem filter_devices (s : State Device) (netdev : Device) :
    (s.registered.filter (·.1 ≠ netdev)).map Prod.fst = s.devices.filter (· ≠ netdev) := by
  simp [State.devices, List.filter_map, Function.comp_def]

theorem appended_list {netdevs : Device → Netdev Device} {start : Option Device}
    {devices : List Device} {last : Device}
    (chain : Chain (fun device => (netdevs device).next) start devices) (once : devices.Nodup)
    (isLast : devices.getLast? = some last) (isNull : (netdevs netdev).next = none)
    (known : netdev ∈ devices → last = netdev) :
    Chain (fun device => (setNext (setNext netdevs last (some netdev)) netdev none device).next)
      start (devices.filter (· ≠ netdev) ++ [netdev]) := by
  rw [setNext_next, setNext_next]
  by_cases listed : netdev ∈ devices
  · obtain rfl := known listed
    obtain ⟨front, rfl⟩ : ∃ front, devices = front ++ [last] :=
      ⟨devices.dropLast, (List.dropLast_append_getLast? last isLast).symm⟩
    have absent : last ∉ front := fun inFront =>
      (List.nodup_append.mp once).2.2 last inFront last (by simp) rfl
    have kept : (front ++ [last]).filter (· ≠ last) = front := by
      simpa using fun device inFront (same : device = last) =>
        absent (same ▸ inFront)
    rw [kept, Function.update_idem]
    refine chain.congr fun device _ => ?_
    by_cases same : device = last
    · subst same
      simp [isNull]
    · simp [same]
  · have kept : devices.filter (· ≠ netdev) = devices := by
      simpa using fun device mem (same : device = netdev) => listed (same ▸ mem)
    have ne : netdev ≠ last := fun same => listed (same ▸ List.mem_of_getLast? isLast)
    rw [kept]
    refine (chain.append once isLast listed isNull).congr fun device _ => ?_
    by_cases same : device = netdev
    · subst same
      simp [ne, isNull]
    · simp [same]

section

variable (inv : Invariant s)

include inv

omit [DecidableEq Device] in
theorem getByName_correct (meets : Meets s (.getByName name)) :
    ∃ found, (∀ fuel ≥ s.registered.length, netdevGetByName fuel s.registry name = some found) ∧
      ∀ device, found = some device ↔ (device, name) ∈ s.registered := by
  refine ⟨_, fun fuel enough => findByName_chain inv.exact.list inv.named enough, ?_⟩
  intro device
  constructor
  · intro found
    obtain ⟨e, isFirst, rfl⟩ := Option.map_eq_some_iff.mp found
    obtain rfl := meets e isFirst
    exact List.mem_of_find?_eq_some isFirst
  · intro mem
    obtain ⟨e, isFirst⟩ : ∃ e, s.registered.find? (·.2.1.isPrefixOf name.1) = some e := by
      refine Option.isSome_iff_exists.mp (List.find?_isSome.mpr ⟨_, mem, ?_⟩)
      simp
    have sameName := meets e isFirst
    have sameDevice := inv.distinct e (List.mem_of_find?_eq_some isFirst) _ mem sameName
    simp [isFirst, sameDevice]

theorem unregister_correct (meets : Meets s (.unregister netdev))
    (enough : s.registered.length ≤ fuel) :
    netdevUnregister fuel s.registry netdev = some (s.registry, .error) := by
  unfold netdevUnregister
  cases first : s.registry.netdevList with
  | none => rfl
  | some device =>
    have chain := inv.exact.list
    rw [first] at chain
    have unchanged : unregisterFrom device netdev fuel s.registry.netdevs (some device) =
        some (s.registry.netdevs, .error) :=
      unregisterFrom_equal chain meets.2 (by simpa [State.devices] using enough)
    simp only [unchanged]
    rw [← first]

theorem cleared_list (isLast : netdev ∈ s.devices → s.devices.getLast? = some netdev)
    {netdevs : Device → Netdev Device} (isNull : (netdevs netdev).next = none)
    (others : ∀ u ≠ netdev, netdevs u = s.registry.netdevs u) :
    Chain (fun device => (netdevs device).next) s.registry.netdevList s.devices := by
  refine inv.exact.list.congr fun device mem => ?_
  by_cases same : device = netdev
  · subst same
    rw [isNull]
    exact (inv.exact.list.next_getLast? (isLast mem)).symm
  · rw [others device same]

theorem Invariant.registered (others : ∀ e ∈ s.registered, e.2 = name → e.1 = netdev)
    {registry : Registry Device} {rest : List UInt8} {returned : Returned Device}
    (list : Chain (fun device => (registry.netdevs device).next) registry.netdevList
      (s.devices.filter (· ≠ netdev) ++ [netdev]))
    (default : ∀ device ∈ registry.netdevDefault, device = netdev ∨ device ∈ s.devices)
    (stored : (registry.netdevs netdev).name = name.1 ++ 0 :: rest)
    (sized : (name.1 ++ 0 :: rest).length = rtNameMax)
    (kept : ∀ u ≠ netdev, (registry.netdevs u).name = (s.registry.netdevs u).name) : Invariant
      { registry := registry
        registered := s.registered.filter (·.1 ≠ netdev) ++ [(netdev, name)]
        returned := returned } := by
  have devices : (s.registered.filter (·.1 ≠ netdev) ++ [(netdev, name)]).map Prod.fst =
      s.devices.filter (· ≠ netdev) ++ [netdev] := by
    rw [List.map_append, filter_devices]
    rfl
  refine ⟨⟨?_, ?_, ?_⟩, ?_, ?_, ?_⟩
  · simp only [State.devices]
    rw [devices]
    exact list
  · simp only [State.devices]
    rw [devices]
    refine List.nodup_append.mpr ⟨inv.exact.once.filter _, List.nodup_singleton _, ?_⟩
    intro device earlier u new same
    have ne : device ≠ netdev := by simpa using (mem_filter.mp earlier).2
    exact ne (same.trans (mem_singleton.mp new))
  · intro device isDefault
    simp only [State.devices]
    rw [devices]
    by_cases same : device = netdev
    · simp [same]
    · refine List.mem_append_left _ (mem_filter.mpr ⟨?_, by simpa using same⟩)
      exact (default device isDefault).resolve_left same
  · intro e mem
    rcases mem_append.mp mem with earlier | new
    · obtain ⟨mem, ne⟩ := mem_filter.mp earlier
      rw [kept e.1 (by simpa using ne)]
      exact inv.named e mem
    · obtain rfl := mem_singleton.mp new
      exact ⟨rest, stored⟩
  · intro a firstMember second secondMember sameName
    rcases mem_append.mp firstMember with earlier | new <;>
      rcases mem_append.mp secondMember with earlier' | new'
    · exact inv.distinct _ (mem_of_mem_filter earlier) _
        (mem_of_mem_filter earlier') sameName
    · obtain rfl := mem_singleton.mp new'
      exact others _ (mem_of_mem_filter earlier) sameName
    · obtain rfl := mem_singleton.mp new
      exact (others _ (mem_of_mem_filter earlier') sameName.symm).symm
    · rw [mem_singleton.mp new, mem_singleton.mp new']
  · intro device
    by_cases same : device = netdev
    · subst same
      rw [stored, sized]
    · rw [kept device same, inv.sized]

theorem register_correct {userData : Option Nat}
    (meets : Meets s (.register netdev name userData)) :
    
    ∃ registry, (∀ fuel ≥ s.registered.length + 1,
        netdevRegister fuel s.registry netdev name userData = some registry) ∧
      Invariant
        { registry := registry
          registered := s.registered.filter (·.1 ≠ netdev) ++ [(netdev, name)]
          returned := .done } := by
  obtain ⟨isLast, others, fits, zero⟩ := meets
  obtain ⟨rest, overwritten, sized⟩ := overwrite_name fits (inv.sized netdev) zero
  let cleanedNetdev := cleaned (s.registry.netdevs netdev) (name.1 ++ 0 :: rest) userData
  let netdevs := Function.update s.registry.netdevs netdev cleanedNetdev
  have stored : netdevs netdev = cleanedNetdev := Function.update_self ..
  have kept : ∀ u ≠ netdev, netdevs u = s.registry.netdevs u :=
    fun u ne => Function.update_of_ne ne ..
  have isNull : (netdevs netdev).next = none := by rw [stored]; rfl
  cases first : s.registry.netdevList with
  | none =>
    have empty : s.devices = [] := inv.exact.list.eq_none_iff.mp first
    refine ⟨⟨netdevs, some netdev, some netdev⟩, fun fuel _ => ?_, ?_⟩
    · simp only [netdevRegister, overwritten, first]
      rfl
    · refine inv.registered others ?_ ?_ (congrArg Netdev.name stored) sized
        (fun u ne => congrArg Netdev.name (kept u ne))
      · simpa [empty, Chain] using isNull
      · simp
  | some device =>
    have chain := cleared_list inv isLast isNull kept
    rw [first] at chain
    obtain ⟨more, isDevices, _⟩ := chain.cases_some
    obtain ⟨last, isLastDevice⟩ : ∃ last, s.devices.getLast? = some last := by
      rw [isDevices]
      exact ⟨_, List.getLast?_cons⟩
    refine ⟨{ s.registry with
      netdevs := setNext (setNext netdevs last (some netdev)) netdev none }, ?_, ?_⟩
    · intro fuel enough
      have walked : lastFrom netdevs fuel device = some last := by
        rw [isDevices] at chain isLastDevice
        refine lastFrom_chain chain isLastDevice ?_
        have length := congrArg List.length isDevices
        simp only [State.devices, List.length_map, length_cons] at length
        omega
      have appended : rtSlistAppend fuel netdevs device netdev =
          some (setNext (setNext netdevs last (some netdev)) netdev none) := by
        simp only [rtSlistAppend, walked]
      simp only [netdevRegister, overwritten, first]
      rw [appended]
    · refine inv.registered others ?_ ?_ ?_ sized ?_
      · rw [first]
        exact appended_list chain inv.exact.once isLastDevice isNull
          (fun listed => by simpa [isLastDevice] using isLast listed)
      · exact fun device isDefault => .inr (inv.exact.default device isDefault)
      · simp [stored, cleanedNetdev, cleaned]
      · intro u ne
        simp [kept u ne]

theorem meets_returns (e : Event Device) (meets : Meets s e) :
    ∃ after, system.step s e after ∧ Invariant after ∧ Correct ⟨s, e, after⟩ := by
  cases e with
  | register netdev name userData =>
    obtain ⟨registry, returns, holds⟩ := register_correct inv meets
    refine ⟨_, ⟨s.registered.length + 1, fun fuel enough => ?_⟩, holds, trivial⟩
    simp only [stepWithin, returns fuel enough, Option.map_some]
  | unregister netdev =>
    obtain ⟨absent, equal⟩ := meets
    have unchanged : s.registered.filter (·.1 ≠ netdev) = s.registered := by
      simpa using fun device name mem (same : device = netdev) =>
        absent (mem_devices.mpr ⟨name, same ▸ mem⟩)
    refine ⟨{ s with returned := .unregistered .error },
      ⟨s.registered.length, fun fuel enough => ?_⟩,
      ⟨⟨inv.exact.list, inv.exact.once, inv.exact.default⟩, inv.named, inv.distinct, inv.sized⟩, ?_⟩
    · simp only [stepWithin, unregister_correct inv ⟨absent, equal⟩ enough,
        Option.map_some, unchanged]
    · exact ⟨by simp [absent], fun _ _ => rfl⟩
  | getByName name =>
    obtain ⟨found, returns, exact⟩ := getByName_correct inv meets
    refine ⟨{ s with returned := .found found }, ⟨s.registered.length, fun fuel enough => ?_⟩,
      ⟨⟨inv.exact.list, inv.exact.once, inv.exact.default⟩,
        inv.named, inv.distinct, inv.sized⟩, found, rfl, exact⟩
    simp only [stepWithin, returns fuel enough, Option.map_some]
  | setDefault netdev =>
    refine ⟨_, ⟨0, fun fuel _ => rfl⟩, ?_, trivial⟩
    cases netdev with
    | none =>
      exact ⟨⟨inv.exact.list, inv.exact.once, inv.exact.default⟩,
        inv.named, inv.distinct, inv.sized⟩
    | some netdev =>
      exact ⟨⟨inv.exact.list, inv.exact.once, meets⟩, inv.named, inv.distinct, inv.sized⟩

end

theorem step_unique {e : Event Device} {u : State Device}
    (ran : system.step s e after) (stepped' : system.step s e u) : after = u := by
  obtain ⟨bound, r⟩ := ran
  obtain ⟨bound', result'⟩ := stepped'
  have := r (max bound bound') (Nat.le_max_left ..)
  rw [result' _ (Nat.le_max_right ..)] at this
  exact (Option.some.inj this).symm

theorem run_invariant {taken : List (Taken (State Device) (Event Device))}
    {last : State Device} (run : system.Run taken last) (every : EveryStep Meets taken) :
    Throughout Invariant taken last := by
  refine run.throughout_of_everyStep (fun _ => initial_invariant) ?_ every
  intro s e after inv meets ran
  obtain ⟨u, stepped', holds, _⟩ := meets_returns inv e meets
  rwa [step_unique ran stepped']

/-- In a run whose calls meet the condition, the list and the default device are as they
should be in every state, each call is correct, and the next one that meets the condition
returns. -/
theorem registry_exact {taken : List (Taken (State Device) (Event Device))}
    {last : State Device} (run : system.Run taken last) (every : EveryStep Meets taken) :
    Throughout Exact taken last ∧ (∀ step ∈ taken, Correct step) ∧
      ∀ e, Meets last e → ∃ after, system.step last e after := by
  have holds := run_invariant run every
  refine ⟨holds.imp fun _ inv => inv.exact, ?_, ?_⟩
  · intro step mem
    have ran := run.step_of_mem mem
    obtain ⟨after, stepped', _, correct⟩ :=
      meets_returns (holds.2 step mem) step.event (every step mem)
    obtain rfl := step_unique ran stepped'
    exact correct
  · intro e meets
    obtain ⟨after, ran, _⟩ := meets_returns holds.1 e meets
    exact ⟨after, ran⟩

def unused : Netdev Bool where
  next := none
  name := List.replicate rtNameMax 0
  ipAddr := 0
  netmask := 0
  gw := 0
  dnsServers := [0, 0]
  hwaddrLen := 0
  hwaddr := []
  flags := 0
  mtu := 0
  ops := none
  statusCallback := none
  addrCallback := none
  salUserData := none
  userData := none

def fresh : State Bool where
  registry := { netdevs := fun _ => unused, netdevList := none, netdevDefault := none }
  registered := []
  returned := .done

theorem fresh_initial : Initial fresh := ⟨rfl, rfl, rfl, fun _ => rfl⟩

def firstName : Name := ⟨[101, 48], by decide⟩

def secondName : Name := ⟨[101, 49], by decide⟩

theorem step_of_stepWithin {e : Event Device}
    (ran : ∀ more, stepWithin (more + 3) s e = some after) : system.step s e after := by
  refine ⟨3, fun fuel enough => ?_⟩
  obtain ⟨more, rfl⟩ := Nat.exists_eq_add_of_le' enough
  exact ran more

theorem registrations_run :
    let once := (stepWithin 3 fresh (.register false firstName none)).get rfl
    let twice := (stepWithin 3 once (.register true secondName none)).get rfl
    system.Run [⟨once, .register true secondName none, twice⟩,
      ⟨fresh, .register false firstName none, once⟩] twice :=
  ((Run.start fresh_initial).next (step_of_stepWithin fun _ => rfl)).next
    (step_of_stepWithin fun _ => rfl)

theorem two_devices_exact :
    ∃ taken last, (system : TransitionSystem (State Bool) (Event Bool)).Run taken last ∧
      taken.length = 3 ∧ Throughout Exact taken last ∧ (∀ step ∈ taken, Correct step) ∧
      ∀ e, Meets last e → ∃ after, system.step last e after := by
  have run := registrations_run.next (show system.step _ (.getByName secondName) _ from
    step_of_stepWithin fun _ => rfl)
  exact ⟨_, _, run, rfl, registry_exact run (by decide +kernel)⟩

/-- Two devices are registered under different names, and the removal of the second one is
refused. -/
theorem removal_refused : ¬ ∀ (taken : List (Taken (State Bool) (Event Bool))) (last : State Bool),
      system.Run taken last → Throughout Exact taken last ∧ ∀ step ∈ taken, Correct step := by
  intro claim
  have run := registrations_run.next (show system.step _ (.unregister true) _ from
    step_of_stepWithin fun _ => rfl)
  have removed := ((claim _ _ run).2 _ mem_cons_self).1
  have refused : (Returned.unregistered .error : Returned Bool) = .unregistered .eok := removed
  cases refused

end RtThread.NetdevList
