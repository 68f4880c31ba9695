import TouchHLE.Rust
import TouchHLE.Mem
import TouchHLE.Cpu
import TouchHLE.A32
import TouchHLE.Dyld.Basic
import TouchHLE.Dyld.Linker
import TouchHLE.Dyld.Stubs
import TouchHLE.Dyld.LazyLink
import TouchHLE.Dyld.StubExec
import TouchHLE.Dyld.Run
import TouchHLE.Dyld.Invariant
import TouchHLE.Dyld.Dispatch
import TouchHLE.Dyld.Coherence
import TouchHLE.Dyld.Binding
import TouchHLE.Dyld.Validation
import TouchHLE.Objc.Objects
import TouchHLE.Foundation.NSThread
import TouchHLE.Foundation.Threads
import TouchHLE.Foundation.HostObjects
import TouchHLE.Foundation.Registry
