import RouterAgent.Lease.File
import RouterAgent.Text.Quoted
import RouterAgent.Value

/-!
Platforms that the agent runs on: where it listens, which lease files it watches, and what it does
at each hook.
-/

namespace RouterAgent

open RouterAgent.Lease

/-- The address at which the agent listens if it is not the resolver of the whole system. -/
def localAddress : String := "127.0.0.1:5354"

/-- What a service manager is told about the agent. -/
structure Service where
  name : String
  displayName : String
  description : String
  executable : String
  arguments : List Value
  options : OrderedMap String Value

/-- One thing done at a hook. -/
inductive Deed where
  /-- Tells that the hook was reached. -/
  | announce
  /-- Sets options of the service. -/
  | setOptions (entries : List (String × Value))
  /-- Fails. -/
  | fail (fault : Fault)
  /-- Fails unless the settings say that files are kept across a restart. -/
  | requireJournal
  /-- Waits until the settings say that the clock is set. -/
  | awaitClock

/-- A platform. `kind` is what it is an instance of, in the words of a message. An empty listening
address leaves the choice to the system. -/
structure Platform where
  kind : String
  name : String
  listenAddress : String
  watched : List WatchedFile
  hooks : Hook → List Deed

namespace Platform

def description (p : Platform) : String := s!"{p.kind}(name={Text.quoted p.name})"

def plain : Platform :=
  { kind := "RouterPlatform", name := "", listenAddress := localAddress, watched := []
    hooks := fun _ => [] }

def leaseFile (format : Format) (path : String) : WatchedFile := ⟨path, format, none⟩

def only (hook : Hook) (deeds : List Deed) (h : Hook) : List Deed :=
  if h = hook then deeds else []

/-! ### The platforms -/

/-- The script that starts and stops the agent on OpenWrt. -/
def startScript : String :=
  "\n".intercalate
    ["#!/bin/sh /etc/rc.common",
     "USE_PROCD=1",
     "# After network starts",
     "START=21",
     "# Before network stops",
     "STOP=89",
     "cmd=\"\x7b\x7b.Path\x7d\x7d\x7b\x7brange .Arguments\x7d\x7d \x7b\x7b.|cmd\x7d\x7d" ++
       "\x7b\x7bend\x7d\x7d\"",
     "name=\"\x7b\x7b.Name\x7d\x7d\"",
     "pid_file=\"/var/run/$\x7bname\x7d.pid\"",
     "",
     "start_service() \x7b",
     "  echo \"Starting $\x7bname\x7d\"",
     "  procd_open_instance",
     "  procd_set_param command $\x7bcmd\x7d",
     "  procd_set_param respawn",
     "  procd_set_param stdout 1",
     "  procd_set_param stderr 1",
     "  procd_set_param pidfile $\x7bpid_file\x7d",
     "  procd_close_instance",
     "  echo \"$\x7bname\x7d has been started\"",
     "\x7d",
     ""]

/-- EdgeOS runs one of two servers, and each has its file. -/
def edgeos : Platform :=
  { plain with
    kind := "EdgeOsPlatform", name := "edgeos"
    watched := [leaseFile .dnsmasq "/run/dnsmasq-dhcp.leases", leaseFile .isc "/run/dhcpd.leases"] }

/-- DD-WRT keeps the agent only if a journal is enabled. -/
def ddwrt : Platform :=
  { plain with
    kind := "DDWrtPlatform", name := "ddwrt"
    watched := [leaseFile .dnsmasq "/tmp/dnsmasq.leases"]
    hooks := only .configureService [.requireJournal] }

/-- Merlin may start the agent before its clock is set. -/
def merlin : Platform :=
  { plain with
    kind := "MerlinPlatform", name := "merlin"
    watched := [leaseFile .dnsmasq "/var/lib/misc/dnsmasq.leases"]
    hooks := only .preRun [.awaitClock] }

def openwrt : Platform :=
  { plain with
    kind := "OpenWrtPlatform", name := "openwrt"
    watched := [leaseFile .dnsmasq "/tmp/dhcp.leases"]
    hooks := only .configureService [.setOptions [("SysvScript", .text startScript)]] }

/-- On pfSense the agent is the resolver of the system. -/
def pfsense : Platform :=
  { plain with
    kind := "PfsensePlatform", name := "pfsense", listenAddress := ""
    watched := [leaseFile .isc "/var/dhcpd/var/db/dhcpd.leases"] }

def synology : Platform :=
  { plain with
    kind := "SynologyPlatform", name := "synology"
    watched := [leaseFile .dnsmasq "/etc/dhcpd/dhcpd-leases.log"] }

def tomato : Platform :=
  { plain with
    kind := "TomatoPlatform", name := "tomato"
    watched := [leaseFile .dnsmasq "/tmp/var/lib/misc/dnsmasq.leases"]
    hooks := only .preRun [.awaitClock] }

/-- UbiOS has its file in one of two places, which the model decides. -/
def ubios : Platform :=
  { plain with
    kind := "UbiosPlatform", name := "ubios"
    watched := [leaseFile .dnsmasq "/mnt/data/udapi-config/dnsmasq.lease",
      leaseFile .dnsmasq "/data/udapi-config/dnsmasq.lease"] }

def all : List Platform := [edgeos, ddwrt, merlin, openwrt, pfsense, synology, tomato, ubios]

end Platform

end RouterAgent
