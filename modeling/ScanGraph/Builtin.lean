/-
The plugins that are always at hand.  How names are looked up is left open.

`entrypointsOf` binds the bodies to the names of their plugins, for manifests that
declare them; `addAll` adds them all to a draft.  Both take the resolver that the
scanner is to ask, so that what is true of the plugins at hand is true for every
resolver.
-/
import ScanGraph.Builtin.DnsScan
import ScanGraph.Builtin.Rules
import ScanGraph.Registry

namespace ScanGraph.Builtin

/-- The bodies of the plugins at hand, named by their ids. -/
def entrypointsOf (resolve : Dns.Resolver) : Entrypoints :=
  .ofList [
    (dnsRecords, .scanner (dnsScan resolve)),
    (dnsNormalizer, .normalizer dnsNormalize),
    (dnsResolving, .rule resolving),
    (ipv6OnNameservers, .rule nameserverIpv6),
    (portClassification, .rule classifyPort)]

/-- A draft with the plugins at hand. -/
def addAll (resolve : Dns.Resolver) (d : Registry.Draft) : Registry.Draft :=
  ((((d.addScanner dnsRecordsDefinition (some (dnsScan resolve))).addNormalizer
    dnsNormalizerDefinition dnsNormalize).addRule dnsResolvingDefinition resolving).addRule
    ipv6OnNameserversDefinition nameserverIpv6).addRule portClassificationDefinition classifyPort

end ScanGraph.Builtin
