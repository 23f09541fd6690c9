/-
Answers about addresses, normalized.

Writing an answer and normalizing it loses nothing but the order and the
repetitions of the addresses: besides copies of the host there are exactly one
object and one record for each address.  Main statement:
`normalize_ofAddresses`.

## What is asked, and what is not

The host's name has no blanks, begins no comment and does not end in a dot (`IsName`).
The network may be any reference, and the addresses any list, with repetitions and of
both families.  The answer is the one that the encoder makes of the list, so that what
is said here is about the encoder and the normalizer together.

Copies of the host come first in what the normalizer returns, one for every line; they
are dropped by the runner, which `Dns.Objects` and `Normalizing.Kept` speak about.
Other answers, with other record types or with faulty lines, are the subject of
`Dns.Closed`.
-/
import ScanGraph.Proofs.Dns.Objects

namespace ScanGraph.Dns

open Builtin

/-- The objects that an address of a host stands for: the address on its network, and the record
that gives it to the host and may be kept for no time. -/
def found (network host : Reference) : Address → List Entity
  | .v4 x => [.ipv4 network x,
      .dnsA host (Address.v4 x).text (Entity.ipv4 network x).reference (some 0)]
  | .v6 x => [.ipv6 network x,
      .dnsAAAA host (Address.v6 x).text (Entity.ipv6 network x).reference (some 0)]

/-- The objects that are not copies of the input. -/
def besides (input : Snapshot) (output : List Snapshot) : List Snapshot :=
  output.filter (fun o => decide (o.entity ≠ input.entity))

section Answered

variable {network : Reference} {name : String} {x : Address}

theorem found_eq (network : Reference) (name : String) (x : Address) :
    found network (Entity.hostname network name).reference x
      = [addressEntity network x, recordEntity network name x] := by
  cases x <;> rfl

theorem addressEntity_ne_hostname : addressEntity network x ≠ .hostname network name := by
  cases x <;> exact Entity.noConfusion

theorem recordEntity_ne_hostname : recordEntity network name x ≠ .hostname network name := by
  cases x <;> exact Entity.noConfusion

/-- Without the copies of the host only the objects of the addresses are left. -/
theorem besides_hostname {input : Snapshot} (hinput : input.entity = .hostname network name)
    (addresses : List Address) :
    besides input ((Entity.hostname network name :: addresses.flatMap (fun x =>
        [.hostname network name, addressEntity network x, recordEntity network name x])).map
        Snapshot.ofEntity)
      = (addresses.flatMap (found network input.reference)).map Snapshot.ofEntity := by
  have hreference : input.reference = (Entity.hostname network name).reference :=
    congrArg Entity.reference hinput
  have hentity : (fun o : Snapshot => decide (o.entity ≠ .hostname network name))
      ∘ Snapshot.ofEntity = fun e => decide (e ≠ .hostname network name) := rfl
  have hcopy : ∀ es : List Entity,
      (.hostname network name :: es).filter (fun e => decide (e ≠ .hostname network name))
        = es.filter (fun e => decide (e ≠ .hostname network name)) :=
    fun es => List.filter_cons_of_neg (by simp)
  unfold besides
  rw [hinput, hreference, List.filter_map, hentity, hcopy, List.filter_flatMap]
  refine congrArg (List.map Snapshot.ofEntity) ?_
  refine List.flatMap_congr (fun x _ => ?_)
  rw [found_eq, hcopy]
  refine List.filter_eq_self.2 (fun e he => decide_eq_true ?_)
  rcases List.mem_pair.1 he with rfl | rfl
  · exact addressEntity_ne_hostname
  · exact recordEntity_ne_hostname

/-- Normalizing the answer that lists the addresses of a host succeeds.  Besides copies of the host
it gives the objects of each address once, each under a reference of its own, and nothing else. -/
theorem normalize_ofAddresses (hname : IsName name) (addresses : List Address) (j : NormalizeJob)
    {input : Snapshot} (hinput : input.entity = .hostname network name) :
    ∃ (output : List Snapshot) (xs : List Address),
      dnsNormalize j input (Answer.ofAddresses name addresses).octets = .returned output ∧
      xs.Nodup ∧ (∀ x, x ∈ xs ↔ x ∈ addresses) ∧
      besides input output = (xs.flatMap (found network input.reference)).map Snapshot.ofEntity ∧
      ((besides input output).map Snapshot.reference).Nodup := by
  have hnormalize : dnsNormalize j input (Answer.ofAddresses name addresses).octets
      = .returned ((Entity.hostname network name ::
          (SortedSet.ofList addresses).toList.flatMap (fun x => [.hostname network name,
            addressEntity network x, recordEntity network name x])).map Snapshot.ofEntity) := by
    unfold dnsNormalize
    rw [hinput]
    simp only [hname.dnsObjects_octets network addresses]
  have hbesides := besides_hostname hinput (SortedSet.ofList addresses).toList
  refine ⟨_, (SortedSet.ofList addresses).toList, hnormalize, Address.nodup_ofList addresses,
    SortedSet.mem_ofList addresses, hbesides, ?_⟩
  have hreference : input.reference = (Entity.hostname network name).reference :=
    congrArg Entity.reference hinput
  have hfound : found network input.reference
      = fun x => [addressEntity network x, recordEntity network name x] := by
    rw [hreference]
    exact funext (found_eq network name)
  rw [hbesides, hfound, List.map_map]
  exact nodup_references (Address.nodup_ofList addresses) network name

end Answered

/-! ## Addresses of both families -/

namespace Families

def host : Snapshot :=
  .ofEntity (.hostname (Entity.network "internet").reference "a.example")

theorem entity_host :
    host.entity = .hostname (Entity.network "internet").reference "a.example" :=
  rfl

/-- An address, and the same as it is written in the other family. -/
def addresses : List Address :=
  [.v4 ⟨127, 0, 0, 1⟩, .v6 ⟨#v[0, 0, 0, 0, 0, 0xFFFF, 0x7F00, 1]⟩]

theorem isName : IsName "a.example" :=
  ⟨(Text.isWord_of_any (by decide) rfl).2, by decide, by decide⟩

/-- Listed twice in other orders, each of the two addresses is found once. -/
theorem normalize_ofAddresses_families :
    IsName "a.example" ∧ ∃ output,
      dnsNormalize default host
        (Answer.ofAddresses "a.example" (addresses.reverse ++ addresses)).octets
          = .returned output ∧
      (besides host output).Perm
        ((addresses.flatMap (found (Entity.network "internet").reference host.reference)).map
          Snapshot.ofEntity) := by
  obtain ⟨output, xs, houtput, hnodup, hmem, hbesides, -⟩ :=
    normalize_ofAddresses isName (addresses.reverse ++ addresses) default entity_host
  have hperm : xs.Perm addresses := by
    refine (List.perm_ext_iff_of_nodup hnodup (by decide)).2 (fun x => (hmem x).trans ?_)
    rw [List.mem_append, List.mem_reverse, or_self]
  exact ⟨isName, output, houtput, hbesides ▸ (hperm.flatMap_right _).map _⟩

end Families

end ScanGraph.Dns
