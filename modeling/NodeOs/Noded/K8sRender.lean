import NodeOs.Noded.Workload

/-!
# The rendered kubelet files

The texts `K8sProfile::reconcile` writes, and where it writes them. Values are
put into the templates as they are: nothing is quoted or escaped.
-/

namespace NodeOs.Noded.K8sRender

open NodeOs.Noded.FileSystem NodeOs.Noded.Workload

def kubeletDir : Path := .ofNames ["var", "lib", "nodeos", "k8s", "kubelet"]

def clusterCaPath : Path := kubeletDir.join "cluster-ca.pem"

def bootstrapKubeconfigPath : Path := kubeletDir.join "bootstrap-kubeconfig"

def kubeletConfigPath : Path := kubeletDir.join "config.yaml"

def bootstrapKubeconfigLines (intent : NodeIntent) : List String :=
  [ "apiVersion: v1",
    "kind: Config",
    "clusters:",
    "- name: default",
    "  cluster:",
    "    certificate-authority: " ++ clusterCaPath.display,
    "    server: " ++ intent.apiServer,
    "contexts:",
    "- name: default",
    "  context:",
    "    cluster: default",
    "    user: kubelet-bootstrap",
    "current-context: default",
    "users:",
    "- name: kubelet-bootstrap",
    "  user:",
    "    token: " ++ intent.bootstrapToken ]

def renderBootstrapKubeconfig (intent : NodeIntent) : String :=
  unlines (bootstrapKubeconfigLines intent)

def renderKubeletConfig (intent : NodeIntent) : String :=
  unlines
    ([ "apiVersion: kubelet.config.k8s.io/v1beta1",
       "kind: KubeletConfiguration",
       "cgroupDriver: cgroupfs",
       "containerRuntimeEndpoint: unix:///run/containerd/containerd.sock",
       "clusterDomain: " ++ intent.clusterDomain,
       "clusterDNS:" ] ++
      intent.clusterDns.map ("  - " ++ ·) ++
     [ "rotateCertificates: true",
       "authentication:",
       "  anonymous:",
       "    enabled: false",
       "  webhook:",
       "    enabled: true",
       "  x509:",
       "    clientCAFile: " ++ clusterCaPath.display,
       "authorization:",
       "  mode: Webhook" ])

theorem cluster_ca_path_text :
    clusterCaPath.display = "/var/lib/nodeos/k8s/kubelet/cluster-ca.pem" := by
  decide

theorem unlines_chars (texts : List String) :
    (unlines texts).toList = (texts.map String.toList).flatMap (· ++ ['\n']) := by
  induction texts with
  | nil => rfl
  | cons text texts ih => simp [unlines, ih]

/-- The sample intents differ in the server's line. -/
theorem sample_kubeconfig_ne :
    asBytes (renderBootstrapKubeconfig otherIntent) ≠
      asBytes (renderBootstrapKubeconfig sampleIntent) := by
  intro same
  have split (intent : NodeIntent) : renderBootstrapKubeconfig intent =
      unlines ((bootstrapKubeconfigLines intent).take 6 ++
        ("    server: " ++ intent.apiServer) :: (bootstrapKubeconfigLines intent).drop 7) := rfl
  rw [split otherIntent, split sampleIntent, as_bytes_unlines_append, as_bytes_unlines_append,
    as_bytes_unlines, as_bytes_unlines] at same
  have servers := List.append_inj_left (List.append_cancel_left same) (by decide)
  exact absurd servers (by decide)

end NodeOs.Noded.K8sRender
