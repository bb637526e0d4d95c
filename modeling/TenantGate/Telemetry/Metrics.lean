/-!
A histogram of durations in milliseconds. A value falls into the first bucket whose bound it does
not exceed, and into the last one when it exceeds them all. All tallies wrap at 2^64.
-/
namespace TenantGate.Telemetry

structure Histogram where
  buckets : List UInt64
  sum : UInt64
  count : UInt64
deriving Repr, DecidableEq

namespace Histogram

def bounds : List UInt64 := [1, 5, 10, 25, 50, 100, 250, 500, 1000, 5000, 10000]

def empty : Histogram := ⟨bounds.map fun _ => 0, 0, 0⟩

def bucketOf (value : UInt64) : Nat :=
  min (bounds.findIdx fun bound => value ≤ bound) (bounds.length - 1)

def observe (h : Histogram) (value : UInt64) : Histogram :=
  ⟨h.buckets.modify (bucketOf value) (· + 1), h.sum + value, h.count + 1⟩

/-- The mean of the values, zero when there are none. -/
def mean (h : Histogram) : Float :=
  if h.count == 0 then 0 else h.sum.toFloat / h.count.toFloat

def table (h : Histogram) : List (UInt64 × UInt64) := bounds.zip h.buckets

end Histogram

/-!
The counters and latencies of tenancy resolution.
-/

inductive Counter where
  | requestsInspected
  | forwardedUntenanted
  | tenanciesResolved
  | defaultTenanciesResolved
  | rejectedMissingTenant
  | rejectedInvalidTenant
  | rejectedNotAMember
  | cancelledRequests
  | membershipLookups
  | membershipLookupErrors
  | settingsLookups
  | settingsLookupErrors
deriving Repr, DecidableEq

namespace Counter

def all : List Counter :=
  [.requestsInspected, .forwardedUntenanted, .tenanciesResolved, .defaultTenanciesResolved,
    .rejectedMissingTenant, .rejectedInvalidTenant, .rejectedNotAMember, .cancelledRequests,
    .membershipLookups, .membershipLookupErrors, .settingsLookups, .settingsLookupErrors]

def name : Counter → String
  | .requestsInspected => "requests_inspected"
  | .forwardedUntenanted => "forwarded_untenanted"
  | .tenanciesResolved => "tenancies_resolved"
  | .defaultTenanciesResolved => "default_tenancies_resolved"
  | .rejectedMissingTenant => "rejected_missing_tenant"
  | .rejectedInvalidTenant => "rejected_invalid_tenant"
  | .rejectedNotAMember => "rejected_not_a_member"
  | .cancelledRequests => "cancelled_requests"
  | .membershipLookups => "membership_lookups"
  | .membershipLookupErrors => "membership_lookup_errors"
  | .settingsLookups => "settings_lookups"
  | .settingsLookupErrors => "settings_lookup_errors"

def ofName? (name : String) : Option Counter := all.find? fun c => c.name == name

end Counter

inductive Latency where
  | resolution
  | membership
  | settings
deriving Repr, DecidableEq

namespace Latency

def all : List Latency := [.resolution, .membership, .settings]

def name : Latency → String
  | .resolution => "resolution_latency_ms"
  | .membership => "membership_latency_ms"
  | .settings => "settings_latency_ms"

def meanName : Latency → String
  | .resolution => "resolution_latency_mean_ms"
  | .membership => "membership_latency_mean_ms"
  | .settings => "settings_latency_mean_ms"

def ofName? (name : String) : Option Latency := all.find? fun l => l.name == name

end Latency

structure Metrics where
  requestsInspected : UInt64
  forwardedUntenanted : UInt64
  tenanciesResolved : UInt64
  defaultTenanciesResolved : UInt64
  rejectedMissingTenant : UInt64
  rejectedInvalidTenant : UInt64
  rejectedNotAMember : UInt64
  cancelledRequests : UInt64
  membershipLookups : UInt64
  membershipLookupErrors : UInt64
  settingsLookups : UInt64
  settingsLookupErrors : UInt64
  resolutionLatency : Histogram
  membershipLatency : Histogram
  settingsLatency : Histogram
deriving Repr, DecidableEq

namespace Metrics

def zero : Metrics := ⟨0, 0, 0, 0, 0, 0, 0, 0, 0, 0, 0, 0, .empty, .empty, .empty⟩

def get (m : Metrics) : Counter → UInt64
  | .requestsInspected => m.requestsInspected
  | .forwardedUntenanted => m.forwardedUntenanted
  | .tenanciesResolved => m.tenanciesResolved
  | .defaultTenanciesResolved => m.defaultTenanciesResolved
  | .rejectedMissingTenant => m.rejectedMissingTenant
  | .rejectedInvalidTenant => m.rejectedInvalidTenant
  | .rejectedNotAMember => m.rejectedNotAMember
  | .cancelledRequests => m.cancelledRequests
  | .membershipLookups => m.membershipLookups
  | .membershipLookupErrors => m.membershipLookupErrors
  | .settingsLookups => m.settingsLookups
  | .settingsLookupErrors => m.settingsLookupErrors

def add (m : Metrics) (n : UInt64) : Counter → Metrics
  | .requestsInspected => { m with requestsInspected := m.requestsInspected + n }
  | .forwardedUntenanted => { m with forwardedUntenanted := m.forwardedUntenanted + n }
  | .tenanciesResolved => { m with tenanciesResolved := m.tenanciesResolved + n }
  | .defaultTenanciesResolved =>
    { m with defaultTenanciesResolved := m.defaultTenanciesResolved + n }
  | .rejectedMissingTenant => { m with rejectedMissingTenant := m.rejectedMissingTenant + n }
  | .rejectedInvalidTenant => { m with rejectedInvalidTenant := m.rejectedInvalidTenant + n }
  | .rejectedNotAMember => { m with rejectedNotAMember := m.rejectedNotAMember + n }
  | .cancelledRequests => { m with cancelledRequests := m.cancelledRequests + n }
  | .membershipLookups => { m with membershipLookups := m.membershipLookups + n }
  | .membershipLookupErrors => { m with membershipLookupErrors := m.membershipLookupErrors + n }
  | .settingsLookups => { m with settingsLookups := m.settingsLookups + n }
  | .settingsLookupErrors => { m with settingsLookupErrors := m.settingsLookupErrors + n }

def increment (m : Metrics) (c : Counter) : Metrics := m.add 1 c

def latency (m : Metrics) : Latency → Histogram
  | .resolution => m.resolutionLatency
  | .membership => m.membershipLatency
  | .settings => m.settingsLatency

def observe (m : Metrics) (value : UInt64) : Latency → Metrics
  | .resolution => { m with resolutionLatency := m.resolutionLatency.observe value }
  | .membership => { m with membershipLatency := m.membershipLatency.observe value }
  | .settings => { m with settingsLatency := m.settingsLatency.observe value }

end Metrics

end TenantGate.Telemetry
