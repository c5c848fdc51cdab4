/-!
# Fixed code

The parts of an emitted runtime that are the same for every chunk, as lines.
-/

namespace ChunkLoading.FixedCode

/-- The module table and the function that runs a module once and gives its exports. -/
def requireFunction : List String := [
  "  var __chunkwise_modules__ = \x7b\x7d;",
  "  var __chunkwise_cache__ = \x7b\x7d;",
  "",
  "  function __chunkwise_require__(moduleId) \x7b",
  "    var cached = __chunkwise_cache__[moduleId];",
  "    if (cached !== undefined) return cached.exports;",
  "    var factory = __chunkwise_modules__[moduleId];",
  "    if (!factory) \x7b",
  "      var error = new Error(\"Cannot find module '\" + moduleId + \"'\");",
  "      error.code = \"MODULE_NOT_FOUND\";",
  "      throw error;",
  "    \x7d",
  "    var module = (__chunkwise_cache__[moduleId] = \x7b exports: \x7b\x7d \x7d);",
  "    factory(module, module.exports, __chunkwise_require__);",
  "    return module.exports;",
  "  \x7d",
  "",
  "  __chunkwise_require__.m = __chunkwise_modules__;",
  "  __chunkwise_require__.c = __chunkwise_cache__;",
  "  __chunkwise_require__.o = (obj, prop) => Object.prototype.hasOwnProperty.call(obj, prop);"]

/-- Asking for chunks: every handler contributes a promise, and all of them must settle. -/
def ensureChunk : List String := [
  "  // ensureChunk: every handler contributes, all of them must settle",
  "  __chunkwise_require__.f = \x7b\x7d;",
  "  __chunkwise_require__.e = (chunkId) =>",
  "    Promise.all(",
  "      Object.keys(__chunkwise_require__.f).reduce((promises, key) => \x7b",
  "        __chunkwise_require__.f[key](chunkId, promises);",
  "        return promises;",
  "      \x7d, [])",
  "    );",
  "",
  "  // Sink for load failures no caller handled",
  "  __chunkwise_require__.oe = (err) => \x7b",
  "    setTimeout(() => \x7b",
  "      throw err;",
  "    \x7d, 0);",
  "    throw err;",
  "  \x7d;",
  "",
  "  __chunkwise_require__.i = (chunkIds, moduleId) =>",
  "    Promise.all(chunkIds.map(__chunkwise_require__.e))",
  "      .then(() => __chunkwise_require__(moduleId))",
  "      .catch((err) => __chunkwise_require__.oe(err));"]

/-- Loading a script by an element of the document, with a time limit. -/
def scriptLoader : List String := [
  "  var inProgress = \x7b\x7d;",
  "  __chunkwise_require__.l = (url, done, key) => \x7b",
  "    if (inProgress[url]) \x7b",
  "      inProgress[url].push(done);",
  "      return;",
  "    \x7d",
  "    var script = document.createElement(\"script\");",
  "    script.charset = \"utf-8\";",
  "    script.timeout = resourceOptions.timeout / 1000;",
  "    if (__chunkwise_require__.nc) script.setAttribute(\"nonce\", __chunkwise_require__.nc);",
  "    if (resourceOptions.crossOrigin) script.crossOrigin = resourceOptions.crossOrigin;",
  "    if (resourceOptions.type) script.type = resourceOptions.type;",
  "    script.setAttribute(\"data-chunkwise\", key);",
  "    script.src = url;",
  "    inProgress[url] = [done];",
  "    var onScriptComplete = (prev, event) => \x7b",
  "      script.onerror = script.onload = null;",
  "      clearTimeout(timeout);",
  "      var doneFns = inProgress[url];",
  "      delete inProgress[url];",
  "      if (script.parentNode) script.parentNode.removeChild(script);",
  "      if (doneFns) doneFns.forEach((fn) => fn(event));",
  "      if (prev) return prev(event);",
  "    \x7d;",
  "    var timeout = setTimeout(",
  "      onScriptComplete.bind(null, undefined, \x7b type: \"timeout\", target: script \x7d),",
  "      resourceOptions.timeout",
  "    );",
  "    script.onerror = onScriptComplete.bind(null, script.onerror);",
  "    script.onload = onScriptComplete.bind(null, script.onload);",
  "    document.head.appendChild(script);",
  "  \x7d;"]

/-- The handler that loads a chunk by a script. -/
def scriptHandler : List String := [
  "  __chunkwise_require__.f.j = (chunkId, promises) => \x7b",
  "    var loading = __chunkwise_require__.o(installedChunks, chunkId) ? installedChunks[chunkId] : undefined;",
  "    if (loading === 0) return;",
  "    if (loading) \x7b",
  "      promises.push(loading[2]);",
  "      return;",
  "    \x7d",
  "    var promise = new Promise((resolve, reject) => (loading = installedChunks[chunkId] = [resolve, reject]));",
  "    promises.push((loading[2] = promise));",
  "    var url = __chunkwise_require__.p + __chunkwise_require__.u(chunkId);",
  "    // Only the attempt still in flight may be rejected",
  "    var loadingEnded = (event) => \x7b",
  "      if (installedChunks[chunkId] !== loading) return;",
  "      delete installedChunks[chunkId];",
  "      var errorType = event && (event.type === \"load\" ? \"missing\" : event.type);",
  "      var realSrc = (event && event.target && event.target.src) || url;",
  "      var error = new Error();",
  "      if (errorType === \"timeout\") \x7b",
  "        error.name = \"ChunkLoadTimeout\";",
  "        error.message = \"Loading chunk \" + chunkId + \" timed out.\\n(\" + realSrc + \")\";",
  "      \x7d else \x7b",
  "        error.name = \"ChunkLoadError\";",
  "        error.message = \"Loading chunk \" + chunkId + \" failed.\\n(\" + errorType + \": \" + realSrc + \")\";",
  "      \x7d",
  "      error.type = errorType;",
  "      error.request = realSrc;",
  "      loading[1](error);",
  "    \x7d;",
  "    __chunkwise_require__.l(url, loadingEnded, \"chunk-\" + chunkId);",
  "  \x7d;"]

/-- The handler of a chunk that loads nothing itself. -/
def noopHandler : List String := [
  "  // This chunk loads nothing itself; other chunks still call ensureChunk",
  "  __chunkwise_require__.f.j = (chunkId, promises) => \x7b\x7d;"]

/-- Hinting a chunk that nobody asked for yet. -/
def hintFunction : List String := [
  "  // Hints only touch chunks nobody asked for yet",
  "  var hint = (chunkId, rel) => \x7b",
  "    if (__chunkwise_require__.o(installedChunks, chunkId) && installedChunks[chunkId] !== undefined) return;",
  "    installedChunks[chunkId] = null;",
  "    var link = document.createElement(\"link\");",
  "    if (__chunkwise_require__.nc) link.setAttribute(\"nonce\", __chunkwise_require__.nc);",
  "    if (resourceOptions.crossOrigin) link.crossOrigin = resourceOptions.crossOrigin;",
  "    link.rel = rel;",
  "    if (rel === \"preload\") link.as = \"script\";",
  "    link.href = __chunkwise_require__.p + __chunkwise_require__.u(chunkId);",
  "    document.head.appendChild(link);",
  "  \x7d;"]

/-- Prefetch hints. -/
def prefetchFunction : List String := [
  "  __chunkwise_require__.F = \x7b j: (chunkId) => hint(chunkId, \"prefetch\") \x7d;"]

/-- Preload hints, given along with every load. -/
def preloadFunction : List String := [
  "  __chunkwise_require__.H = \x7b j: (chunkId) => hint(chunkId, \"preload\") \x7d;",
  "  __chunkwise_require__.f.preload = (chunkId) => \x7b",
  "    var children = chunkPreloads[chunkId];",
  "    if (Array.isArray(children)) children.forEach(__chunkwise_require__.H.j);",
  "  \x7d;"]

/-- The worklist of entries that wait for their chunks. -/
def scheduler : List String := [
  "  // Entries waiting until every chunk of their group is loaded",
  "  var deferred = [];",
  "  __chunkwise_require__.O = (entries) => \x7b",
  "    if (entries) deferred.push(...entries);",
  "    var ready = [];",
  "    deferred = deferred.filter((entry) => \x7b",
  "      if (entry[1].every((chunkId) => installedChunks[chunkId] === 0)) \x7b",
  "        ready.push(entry);",
  "        return false;",
  "      \x7d",
  "      return true;",
  "    \x7d);",
  "    ready.forEach((entry) => __chunkwise_require__(entry[0]));",
  "    return ready.length;",
  "  \x7d;"]

/-- Collecting updates of the running build. -/
def hotUpdate : List String := [
  "  // Chunks delivered to this runtime; only these take part in an update",
  "  __chunkwise_require__.hmrD = ((previous) => (data) => \x7b",
  "    data[0].forEach((chunkId) => \x7b",
  "      hotLoadedChunks[chunkId] = true;",
  "    \x7d);",
  "    if (previous) previous(data);",
  "  \x7d)(__chunkwise_require__.hmrD);",
  "",
  "  __chunkwise_require__.hmrM = () => \x7b",
  "    if (typeof fetch === \"undefined\") throw new Error(\"No browser support: need fetch API\");",
  "    return fetch(__chunkwise_require__.p + __chunkwise_require__.hmrF()).then((response) => \x7b",
  "      if (response.status === 404) return;",
  "      if (!response.ok) throw new Error(\"Failed to fetch update manifest \" + response.statusText);",
  "      return response.json();",
  "    \x7d);",
  "  \x7d;",
  "",
  "  // Updates in progress, keyed by the build hash they apply to",
  "  var hotUpdates = \x7b\x7d;",
  "  __chunkwise_require__.hmrC = (manifest) => \x7b",
  "    var hash = __chunkwise_require__.h();",
  "    var update = (hotUpdates[hash] = \x7b hash: hash, manifest: manifest, modules: \x7b\x7d, awaiting: \x7b\x7d \x7d);",
  "    var promises = (manifest.c || [])",
  "      .filter((chunkId) => hotLoadedChunks[chunkId])",
  "      .map(",
  "        (chunkId) =>",
  "          new Promise((resolve, reject) => \x7b",
  "            update.awaiting[chunkId] = resolve;",
  "            __chunkwise_require__.l(",
  "              __chunkwise_require__.p + __chunkwise_require__.hu(chunkId),",
  "              (event) => \x7b",
  "                if (!update.awaiting[chunkId]) return;",
  "                delete update.awaiting[chunkId];",
  "                var error = new Error(\"Loading hot update chunk \" + chunkId + \" failed.\\n(\" + (event && event.type) + \")\");",
  "                error.type = event && event.type;",
  "                reject(error);",
  "              \x7d,",
  "              \"hot-update-\" + chunkId",
  "            );",
  "          \x7d)",
  "      );",
  "    return Promise.all(promises).then(() => update);",
  "  \x7d;",
  "",
  "  // Move to the next build once an update has been applied",
  "  __chunkwise_require__.hmrS = (nextHash) => \x7b",
  "    var update = hotUpdates[currentHash];",
  "    if (update) (update.manifest.r || []).forEach((chunkId) => delete hotLoadedChunks[chunkId]);",
  "    delete hotUpdates[currentHash];",
  "    currentHash = nextHash;",
  "  \x7d;",
  "",
  "  var hotUpdateCallback = (chunkId, moreModules) => \x7b",
  "    var update = hotUpdates[currentHash];",
  "    if (update) \x7b",
  "      for (var moduleId in moreModules) \x7b",
  "        if (__chunkwise_require__.o(moreModules, moduleId)) update.modules[moduleId] = moreModules[moduleId];",
  "      \x7d",
  "      var resolve = update.awaiting[chunkId];",
  "      if (resolve) \x7b",
  "        delete update.awaiting[chunkId];",
  "        resolve();",
  "      \x7d",
  "    \x7d",
  "    if (parentHotUpdateCallback) parentHotUpdateCallback(chunkId, moreModules);",
  "  \x7d;"]

/-- Merging a delivery: chunk states, modules and the update hook. -/
def deliverHead : List String := [
  "  // Merge one delivery: [chunkIds, modules, entries?, prefetch?]",
  "  // parentPush is the consumer installed before this runtime (or the plain array push)",
  "  var deliverChunk = (parentPush, data) => \x7b",
  "    var chunkIds = data[0];",
  "    var moreModules = data[1];",
  "    var resolves = [];",
  "    for (var i = 0; i < chunkIds.length; i++) \x7b",
  "      var chunkId = chunkIds[i];",
  "      if (__chunkwise_require__.o(installedChunks, chunkId) && installedChunks[chunkId]) \x7b",
  "        resolves.push(installedChunks[chunkId][0]);",
  "      \x7d",
  "      installedChunks[chunkId] = 0;",
  "    \x7d",
  "    for (var moduleId in moreModules) \x7b",
  "      if (__chunkwise_require__.o(moreModules, moduleId) && !__chunkwise_require__.o(__chunkwise_require__.m, moduleId)) \x7b",
  "        __chunkwise_require__.m[moduleId] = moreModules[moduleId];",
  "      \x7d",
  "    \x7d",
  "    if (__chunkwise_require__.hmrD) __chunkwise_require__.hmrD(data);"]

/-- Merging a delivery: its prefetch list. -/
def deliverPrefetch : List String := [
  "    if (data[3]) data[3].forEach(__chunkwise_require__.F.j);"]

/-- Merging a delivery: the promises that waited, and the consumer installed before. -/
def deliverResolve : List String := [
  "    while (resolves.length) resolves.shift()();",
  "    if (parentPush) parentPush(data);"]

/-- Merging a delivery: its entries. -/
def deliverEntries : List String := [
  "    return __chunkwise_require__.O(data[2]);"]

/-- Taking over the delivery array. -/
def install : List String := [
  "  deliveryArray.forEach(deliverChunk.bind(null, 0));",
  "  deliveryArray.push = deliverChunk.bind(null, deliveryArray.push.bind(deliveryArray));"]

end ChunkLoading.FixedCode
